import Retouch.Linter
import Retouch.Proofs.Rule.Wish
import Retouch.Proofs.Session.Marks
import Retouch.Proofs.Session.Sweep

/-!
The linter's sweep over a token list. The rules block each other only where one of them was there
before: no rule empties a terminator that another one edits, so that every batch lands as a whole,
and each token ends up as the first rule wants it that wants anything.
-/

namespace Retouch

open Session (Edited)
open Text (isNewline)

variable {s t : Session} {done : Nat → Option Text} {tokens : List Text}

namespace Rule

theorem lt_of_wishAt {rule : Rule} {terminator c : Text} {q : Nat}
    (wished : rule.wishAt terminator [] tokens q = some c) : q < tokens.length := by
  rw [wishAt_eq] at wished
  by_contra past
  simp [List.getElem?_eq_none (Nat.le_of_not_lt past)] at wished

theorem newlineAt_of_finalRun {q : Nat} (inside : q < tokens.length)
    (reaches : tokens.length - q ≤ FinalNewline.finalRun tokens) :
    BlankLines.newlineAt tokens q = true := by
  have all := (all_drop_iff (Nat.le_of_lt inside)).mpr reaches
  rw [all_drop inside, Bool.and_eq_true] at all
  simp [BlankLines.newlineAt, inside, all.1]

theorem newlineAt_of_cleared {v : Violation} {rule : Rule} {q : Nat}
    (reported : v ∈ rule.check tokens)
    (cleared : rule = finalNewline ∧ FinalNewline.finalRun tokens ≠ 0 ∨ rule = blankLines)
    {terminator : Text} {c : Text} (asked : (q, c) ∈ rule.edits terminator tokens v.pos) :
    BlankLines.newlineAt tokens q = true := by
  have wished := (mem_edits_iff rule).mp ⟨v, reported, asked⟩
  rcases cleared with ⟨rfl, some⟩ | rfl
  · rcases wishAt_finalNewline_iff.mp wished with ⟨_, inside, reaches, _⟩ | ⟨none, _⟩
    · exact newlineAt_of_finalRun inside (Nat.le_of_lt reaches)
    · exact (some none).elim
  · obtain ⟨_, start, stop, found, third, before⟩ := wishAt_blankLines_iff.mp wished
    exact found.newlines q (by omega) before

section Fix

variable {rule : Rule} {v : Violation} (reported : v ∈ rule.check s.tokens)
  (edited : Edited done s t) (idle : s.batch = none) (calm : s.conflict = false)
  (lands : ∀ q c, rule.wishAt s.terminator [] s.tokens q = some c → s.Lands q c)
  (untouched : ∀ q, BlankLines.newlineAt s.tokens q →
    (Slots.find q (rule.edits s.terminator s.tokens v.pos)).isSome → done q = none)

include reported lands untouched in
theorem clearable {positions : List Nat}
    (cleared : rule = finalNewline ∧ FinalNewline.finalRun s.tokens ≠ 0 ∨ rule = blankLines)
    (same : rule.edits s.terminator s.tokens v.pos = positions.map fun pos => (pos, [])) :
    positions.Nodup ∧ (∀ pos ∈ positions, s.Lands pos []) ∧
      ∀ pos ∈ positions, done pos = none := by
  have member : ∀ pos ∈ positions, (pos, []) ∈ rule.edits s.terminator s.tokens v.pos := by
    intro pos listed
    rw [same]
    exact List.mem_map.mpr ⟨pos, listed, rfl⟩
  have distinct := rule.nodup_edits s.terminator s.tokens v.pos
  rw [same] at distinct
  refine ⟨by simpa [Function.comp_def] using distinct, ?_, ?_⟩
  · intro pos listed
    exact lands pos [] ((mem_edits_iff rule).mp ⟨v, reported, member pos listed⟩)
  · intro pos listed
    refine untouched pos (newlineAt_of_cleared reported cleared (member pos listed)) ?_
    rw [find_edits_iff.mpr (member pos listed)]
    rfl

include reported edited idle calm lands

theorem replace_edited {pos : Nat} {c : Text} (source : String)
    (same : rule.edits s.terminator s.tokens v.pos = [(pos, c)]) :
    Edited (fun q => (done q).or (Slots.find q (rule.edits s.terminator s.tokens v.pos))) s
      (t.replace source pos c).session := by
  have wished : rule.wishAt s.terminator [] s.tokens pos = some c :=
    (mem_edits_iff rule).mp ⟨v, reported, by simp [same]⟩
  apply (edited.replace source idle calm (lands pos c wished)).congr
  intro q
  simp [same, Slots.find, eq_comm]

include untouched in
theorem clearAll_edited {positions : List Nat} (source : String)
    (cleared : rule = finalNewline ∧ FinalNewline.finalRun s.tokens ≠ 0 ∨ rule = blankLines)
    (same : rule.edits s.terminator s.tokens v.pos = positions.map fun pos => (pos, [])) :
    Edited (fun q => (done q).or (Slots.find q (rule.edits s.terminator s.tokens v.pos))) s
      ((Script.clearAll source positions).run t).session := by
  obtain ⟨distinct, wished, free⟩ := clearable reported lands untouched cleared same
  rw [same]
  exact edited.clearAll source idle calm distinct wished free

include untouched in
theorem fix_edited :
    Edited (fun q => (done q).or (Slots.find q (rule.edits s.terminator s.tokens v.pos))) s
      ((rule.fix s.tokens v.pos).run t).session := by
  cases rule with
  | trailingBlanks => exact replace_edited reported edited idle calm lands _ rfl
  | tabIndent width =>
    have asks := edits_ne_nil s.terminator reported
    cases read : s.tokens[v.pos]? with
    | none => simp [edits, read] at asks
    | some token =>
      simp only [fix, TabIndent.fix, read]
      exact replace_edited reported edited idle calm lands _ (by simp [edits, read])
  | finalNewline =>
    by_cases none : FinalNewline.finalRun s.tokens = 0
    · have asks := edits_ne_nil s.terminator reported
      cases read : s.tokens[v.pos]? with
      | none => simp [edits, none, read] at asks
      | some token =>
        have same : finalNewline.edits s.terminator s.tokens v.pos =
            [(v.pos, token ++ s.terminator)] := by
          simp [edits, none, read]
        have wished : finalNewline.wishAt s.terminator [] s.tokens v.pos =
            some (token ++ s.terminator) :=
          (mem_edits_iff finalNewline).mp ⟨v, reported, by simp [same]⟩
        simp only [fix, FinalNewline.fix, none, BEq.rfl, if_true]
        apply (edited.appendNewline _ idle calm read (lands _ _ wished)).congr
        intro q
        simp [same, Slots.find, eq_comm]
    · simp only [fix, FinalNewline.fix, beq_iff_eq, none, if_false]
      exact clearAll_edited reported edited idle calm lands untouched _ (Or.inl ⟨rfl, none⟩)
        (by simp [edits, none])
  | blankLines =>
    exact clearAll_edited reported edited idle calm lands untouched _ (Or.inr rfl) rfl

end Fix

/-! ### All violations of a rule -/

theorem wishAt_eq_none_of_newlineAt {rule other : Rule} {terminator : Text} {q : Nat}
    (newline : BlankLines.newlineAt tokens q) (different : rule ≠ other)
    (wished : (rule.wishAt terminator [] tokens q).isSome) :
    other.wishAt terminator [] tokens q = none := by
  rw [wishAt_eq] at wished ⊢
  cases read : tokens[q]? with
  | none => rfl
  | some token =>
    rw [read] at wished
    exact wish_eq_none_of_newline (by simpa [BlankLines.newlineAt, read] using newline) different
      wished

theorem fst_of_mem_edits {rule : Rule} {terminator : Text} {pos : Nat} {e : Nat × Text}
    (blanks : rule = trailingBlanks ∨ ∃ width, rule = tabIndent width)
    (member : e ∈ rule.edits terminator tokens pos) : e.1 = pos := by
  rcases blanks with rfl | ⟨width, rfl⟩
  · obtain rfl := List.mem_singleton.mp member
    rfl
  · obtain ⟨t, -, rfl⟩ := List.mem_map.mp member
    rfl

theorem pairwise_badFrom (pos : Nat) (tokens : List Text) :
    (TrailingBlanks.badFrom pos tokens).Pairwise (· < ·) := by
  induction tokens generalizing pos with
  | nil => exact .nil
  | cons t rest ih =>
    rw [TrailingBlanks.badFrom]
    split
    · refine List.pairwise_cons.mpr ⟨fun q member => ?_, ih (pos + 1)⟩
      obtain ⟨i, rfl, -⟩ := (mem_badFrom [] []).mp member
      omega
    · exact ih (pos + 1)

theorem pairwise_edits (rule : Rule) (terminator : Text) (tokens : List Text) :
    (rule.check tokens).Pairwise fun v w => ∀ q,
      (Slots.find q (rule.edits terminator tokens v.pos)).isSome →
      Slots.find q (rule.edits terminator tokens w.pos) = none := by
  have disjoint (blanks : rule = trailingBlanks ∨ ∃ width, rule = tabIndent width)
      {first second q : Nat} (different : first ≠ second)
      (asked : (Slots.find q (rule.edits terminator tokens first)).isSome) :
      Slots.find q (rule.edits terminator tokens second) = none := by
    obtain ⟨c, asked⟩ := Option.isSome_iff_exists.mp asked
    by_contra twice
    obtain ⟨c', twice⟩ := Option.ne_none_iff_exists'.mp twice
    have here : q = first := fst_of_mem_edits blanks (find_edits_iff.mp asked)
    have there : q = second := fst_of_mem_edits blanks (find_edits_iff.mp twice)
    exact different (here.symm.trans there)
  cases rule with
  | trailingBlanks =>
    rw [check, TrailingBlanks.check, List.pairwise_map]
    exact (pairwise_badFrom 0 tokens).imp fun before q => disjoint (Or.inl rfl) (Nat.ne_of_lt before)
  | tabIndent width =>
    have positions : (tokens.zipIdx.map Prod.snd).Nodup := by
      rw [List.zipIdx_map_snd]
      exact List.nodup_range'
    rw [check, TabIndent.check, List.pairwise_map]
    exact ((List.pairwise_map.mp positions).filter _).imp fun different q =>
      disjoint (Or.inr ⟨width, rfl⟩) different
  | finalNewline =>
    simp only [check, FinalNewline.check]
    repeat' split
    all_goals simp
  | blankLines =>
    rw [check, BlankLines.check, List.pairwise_map]
    refine (BlankLines.pairwise_runs tokens).imp_of_mem ?_
    intro first second member member' apart q asked
    have found := BlankLines.mem_runs.mp member
    have found' := BlankLines.mem_runs.mp member'
    obtain ⟨c, asked⟩ := Option.isSome_iff_exists.mp asked
    have range := (mem_edits_of_isRun found).mp (find_edits_iff.mp asked)
    by_contra twice
    obtain ⟨c', twice⟩ := Option.ne_none_iff_exists'.mp twice
    have range' := (mem_edits_of_isRun found').mp (find_edits_iff.mp twice)
    omega

/-- Mending all violations of a rule gives it all it wishes at positions that are still free. -/
theorem sweep_edited {rule : Rule} (edited : Edited done s t) (idle : s.batch = none)
    (calm : s.conflict = false)
    (lands : ∀ q c, rule.wishAt s.terminator [] s.tokens q = some c → s.Lands q c)
    (untouched : ∀ q, BlankLines.newlineAt s.tokens q →
      (rule.wishAt s.terminator [] s.tokens q).isSome → done q = none) :
    Edited (fun q => (done q).or (rule.wishAt s.terminator [] s.tokens q)) s
      ((Script.forEach (Linter.mend s.tokens rule) (rule.check s.tokens)).run t).session := by
  have swept : Edited _ s ((Script.forEach (Linter.mend s.tokens rule)
      (rule.check s.tokens)).run t).session := edited.forEach
    (fun v q => Slots.find q (rule.edits s.terminator s.tokens v.pos))
    (fun v reported done t edited untouched =>
      fix_edited reported edited idle calm lands untouched)
    ((pairwise_edits rule s.terminator s.tokens).imp fun apart q _ => apart q)
    (fun v reported q newline asked =>
      untouched q newline (isSome_wishAt reported asked))
  simpa only [findSome?_edits] using swept

end Rule

/-! ### All rules -/

namespace Linter

/-- What the first rule wants that wants something in place of a token. -/
def wanted (rules : List Rule) (terminator : Text) (before : List Text) (t : Text)
    (after : List Text) : Option Text :=
  rules.findSome? fun rule => rule.wish terminator before t after

def mended (rules : List Rule) (terminator : Text) : List Text → List Text → List Text
  | _, [] => []
  | before, t :: after =>
    (wanted rules terminator before t after).getD t :: mended rules terminator (t :: before) after

theorem getElem?_mended (rules : List Rule) (terminator : Text) (before tokens : List Text)
    (pos : Nat) : (mended rules terminator before tokens)[pos]? =
      (rules.findSome? fun rule => rule.wishAt terminator before tokens pos).or tokens[pos]? := by
  induction tokens generalizing before pos with
  | nil =>
    have nothing : (rules.findSome? fun _ => (none : Option Text)) = none :=
      List.findSome?_eq_none_iff.mpr fun _ _ => rfl
    simp [mended, Rule.wishAt, nothing]
  | cons t after ih =>
    cases pos with
    | zero =>
      simp only [mended, wanted, Rule.wishAt, List.getElem?_cons_zero]
      cases rules.findSome? fun rule => rule.wish terminator before t after <;> rfl
    | succ pos =>
      simp only [mended, Rule.wishAt, List.getElem?_cons_succ]
      exact ih (t :: before) pos

theorem mendAll_edited {l : Linter} (distinct : l.rules.Nodup) (tokens : s.tokens = l.tokens)
    (idle : s.batch = none) (calm : s.conflict = false)
    (lands : ∀ rule ∈ l.rules, ∀ q c, rule.wishAt s.terminator [] l.tokens q = some c →
      s.Lands q c) :
    Edited (fun q => l.rules.findSome? fun rule => rule.wishAt s.terminator [] l.tokens q) s
      (l.mendAll.run s).session := by
  rw [mendAll]
  rw [← tokens] at lands ⊢
  have swept := (Edited.refl s).forEach
    (fun (rule : Rule) q => rule.wishAt s.terminator [] s.tokens q)
    (fun rule member done t edited untouched =>
      Rule.sweep_edited edited idle calm (lands rule member) untouched)
    (distinct.imp fun different q newline wished =>
      Rule.wishAt_eq_none_of_newlineAt newline different wished)
    (fun _ _ _ _ _ => rfl)
  exact swept.congr fun q => Option.none_or

/-! ### One pass -/

def Clean (rules : List Rule) (text : Text) : Prop :=
  ∀ rule ∈ rules, rule.check (Text.segment text) = []

/-- No wish asks for what a record says was there before. -/
def Moves (l : Linter) (s : Session) : Prop :=
  ∀ rule ∈ l.rules, ∀ q c, rule.wishAt s.terminator [] (Text.segment s.contents) q = some c →
    ∀ r, s.history.record? q = some r → r.previous ≠ c

section Pass

variable {l : Linter} {s : Session} (distinct : l.rules.Nodup) (moves : Moves l s)

include distinct moves

omit distinct in
theorem lands_of_moves : ∀ rule ∈ l.rules, ∀ q c,
    rule.wishAt s.terminator [] (Text.segment s.contents) q = some c →
      (Host.enterPass s (Text.segment s.contents)).1.Lands q c := by
  intro rule member q c wished
  refine ⟨⟨Rule.lt_of_wishAt wished, rfl⟩, ?_⟩
  rintro ⟨r, recorded, back, _⟩
  exact moves rule member q c wished r recorded back

/-- If no wish goes back to a record, the rules get all they wish for. -/
theorem dispatch_edited :
    Edited (fun q => l.rules.findSome? fun rule =>
        rule.wishAt s.terminator [] (Text.segment s.contents) q)
      (Host.enterPass s (Text.segment s.contents)).1 (host.pass s l).1.session := by
  have session : (host.pass s l).1.session =
      (Script.run (mendAll { l with tokens := Text.segment s.contents })
        (Host.enterPass s (Text.segment s.contents)).1).session :=
    (Script.run_andThen (mendAll { l with tokens := Text.segment s.contents }) _ _).1
  rw [session]
  exact mendAll_edited (l := { l with tokens := Text.segment s.contents })
    (s := (Host.enterPass s (Text.segment s.contents)).1) distinct rfl rfl rfl (lands_of_moves moves)

theorem pass_edited :
    Edited (fun q => l.rules.findSome? fun rule =>
        rule.wishAt s.terminator [] (Text.segment s.contents) q)
      (Host.enterPass s (Text.segment s.contents)).1 (host.pass s l).2.1 := by
  have edited := dispatch_edited distinct moves
  have closed : (host.pass s l).2.1 = (Host.closeLeftover (host.pass s l).1.session).1 := rfl
  have idle : (host.pass s l).1.session.batch = none := edited.batch_eq
  rw [closed, Host.closeLeftover, Session.batchOpen, idle]
  exact edited

omit distinct moves in
theorem pass_state (s : Session) (l : Linter) :
    (host.pass s l).2.2.1 = { l with tokens := Text.segment s.contents } :=
  (Script.run_andThen (mendAll { l with tokens := Text.segment s.contents }) _ _).2

theorem pass_tokens : (host.pass s l).2.1.tokens =
    mended l.rules s.terminator [] (Text.segment s.contents) := by
  apply List.ext_getElem?
  intro pos
  rw [getElem?_mended]
  exact (pass_edited distinct moves).landed.tokens pos

/-- A pass settles iff there was nothing to report. -/
theorem pass_settled_iff :
    Host.settled (host.pass s l).2.1 = true ↔ Clean l.rules s.contents := by
  have edited := pass_edited distinct moves
  have calm : (host.pass s l).2.1.conflict = false := edited.conflict_eq
  have marks : ∀ pos, (host.pass s l).2.1.history.marks.get? pos = none ↔
      (l.rules.findSome? fun rule =>
        rule.wishAt s.terminator [] (Text.segment s.contents) pos) = none := by
    intro pos
    have landed : Session.Landed _ (.new (Text.segment s.contents)) (host.pass s l).2.1 :=
      edited.landed.transfer rfl rfl rfl rfl
    rw [← Option.not_isSome_iff_eq_none, ← landed.edited_iff_marked, Option.not_isSome_iff_eq_none]
  rw [Host.settled, calm, Bool.not_false, Bool.and_true, beq_iff_eq]
  unfold Session.fixCount History.fixedCount
  rw [Slots.size_eq_zero_iff]
  simp only [marks, List.findSome?_eq_none_iff, Clean]
  constructor
  · intro none rule member
    exact (Rule.check_eq_nil_iff rule s.terminator _).mpr fun pos => none pos rule member
  · intro clean pos rule member
    exact (Rule.check_eq_nil_iff rule s.terminator _).mp (clean rule member) pos

end Pass

end Linter

end Retouch
