import Retouch.Proofs.Linter.Sweeping
import Retouch.Proofs.Session.Overlay

/-!
One sweep of one rule. A rule that works alone finds every position it asks for as the tokens have
it, since no two of its violations ask for the same one. So whatever it asks for lands, the tokens
that change are those its violations are about, and `sweep_suffices` adds that the text which comes
out has none left, however its tokens are then cut.
-/

namespace Retouch.Rule

open Script (Exchange)
open Session (Edited)
open Text (isNewline isBlankRun segment)

variable {rule : Rule} {s t : Session} {done : Nat → Option Text} {tokens : List Text}
  {terminator c : Text} {v : Violation} {pos : Nat}

def sweep (rule : Rule) (tokens : List Text) : Script Unit :=
  .forEach (fun v => rule.fix tokens v.pos) (rule.check tokens)

/-- The token at `pos` is among those that a violation at `place` is about. -/
def Concerns (tokens : List Text) (place pos : Nat) : Rule → Prop
  | trailingBlanks | tabIndent _ => pos = place ∧ (tokens[pos]?).any isBlankRun
  -- The last token, or the terminators after the first one of the final run.
  | finalNewline =>
    pos < tokens.length ∧ if BlankLines.newlineAt tokens place then
      place < pos ∧ ∀ q, place ≤ q → q < tokens.length → BlankLines.newlineAt tokens q
    else pos = place ∧ pos + 1 = tokens.length
  -- The terminators of the run from the third one on.
  | blankLines =>
    ∃ start stop, BlankLines.IsRun tokens start stop ∧ place = start + 2 ∧ place ≤ pos ∧ pos < stop

/-! ### What is asked for -/

/-- The request is accepted, and an edit that it asks for is one that the rule wishes. -/
def Heeds (rule : Rule) (terminator : Text) (tokens : List Text) (e : Exchange) : Prop :=
  e.step.accepted = true ∧ ∀ pos, e.request.target? = some pos → ∃ token,
    tokens[pos]? = some token ∧
      rule.wishAt terminator [] tokens pos = some (e.request.rewrite terminator token)

section Fix

variable (reported : v ∈ rule.check s.tokens) (edited : Edited done s t) (idle : s.batch = none)
  (calm : s.conflict = false)
  (lands : ∀ q c, rule.wishAt s.terminator [] s.tokens q = some c → s.Lands q c)
  (untouched : ∀ q, (Slots.find q (rule.edits s.terminator s.tokens v.pos)).isSome → done q = none)

include reported edited idle calm lands untouched

theorem single_heeds {request : Request} (source : String)
    (same : rule.edits s.terminator s.tokens v.pos = [(pos, c)])
    (target : request.target? = some pos)
    (asks : (s.tokens[pos]?).map (request.rewrite s.terminator) = some c)
    (performs : t.perform source request = t.replace source pos c) :
    ∀ e ∈ (Script.requestAll source [request]).trace t, rule.Heeds s.terminator s.tokens e := by
  have wished : rule.wishAt s.terminator [] s.tokens pos = some c :=
    (mem_edits_iff rule).mp ⟨v, reported, by simp [same]⟩
  have free : done pos = none := untouched pos (by simp [same, Slots.find])
  have lands : t.Lands pos c := edited.lands_iff.mpr ⟨lands pos c wished, free⟩
  intro e member
  obtain rfl : e = ⟨source, request, t, t.perform source request⟩ := List.mem_singleton.mp member
  refine ⟨?_, fun q found => ?_⟩
  · show (t.perform source request).accepted = true
    rw [performs, edited.replace_eq_apply source idle calm]
    exact (Session.apply_of_lands source lands).1
  · obtain rfl : pos = q := Option.some.inj (target.symm.trans found)
    obtain ⟨token, read, rewritten⟩ := Option.map_eq_some_iff.mp asks
    exact ⟨token, read, rewritten ▸ wished⟩

theorem clearAll_heeds {positions : List Nat} (source : String)
    (cleared : rule = finalNewline ∧ FinalNewline.finalRun s.tokens ≠ 0 ∨ rule = blankLines)
    (same : rule.edits s.terminator s.tokens v.pos = positions.map fun pos => (pos, [])) :
    ∀ e ∈ (Script.clearAll source positions).trace t, rule.Heeds s.terminator s.tokens e := by
  obtain ⟨distinct, fits, free⟩ := clearable reported lands (fun q _ => untouched q) cleared same
  obtain ⟨opening, queued, closing, trace, committed, asks⟩ :=
    edited.clearAll_committed source idle calm distinct fits free
  rw [trace]
  refine List.forall_mem_cons.mpr ⟨?_, List.forall_mem_append.mpr ⟨fun e held => ?_, ?_⟩⟩
  · exact ⟨committed.opened, by simp [committed.opens, Request.target?]⟩
  · obtain ⟨pos, listed, request⟩ := asks e held
    obtain ⟨_, _, -, accepted, -⟩ := committed.lands e held
    refine ⟨accepted, fun q target => ?_⟩
    rw [request] at target ⊢
    obtain rfl : pos = q := Option.some.inj target
    have wished : rule.wishAt s.terminator [] s.tokens pos = some [] :=
      (mem_edits_iff rule).mp ⟨v, reported, by rw [same]; exact List.mem_map.mpr ⟨pos, listed, rfl⟩⟩
    exact ⟨_, List.getElem?_eq_getElem (lt_of_wishAt wished), wished⟩
  · rw [List.forall_mem_singleton]
    exact ⟨committed.committed, by simp [committed.closes, Request.target?]⟩

theorem fix_heeds :
    ∀ e ∈ (rule.fix s.tokens v.pos).trace t, rule.Heeds s.terminator s.tokens e := by
  have asks := edits_ne_nil s.terminator reported
  cases rule with
  | trailingBlanks =>
    have wished : trailingBlanks.wishAt s.terminator [] s.tokens v.pos = some [] :=
      (mem_edits_iff trailingBlanks).mp ⟨v, reported, List.mem_singleton.mpr rfl⟩
    exact single_heeds reported edited idle calm lands untouched _ rfl rfl
      (by simp [lt_of_wishAt wished, Request.rewrite]) rfl
  | tabIndent width =>
    cases read : s.tokens[v.pos]? with
    | none => simp [edits, read] at asks
    | some token =>
      simp only [fix, TabIndent.fix, read]
      exact single_heeds reported edited idle calm lands untouched _ (by simp [edits, read]) rfl
        (by simp [read, Request.rewrite]) rfl
  | finalNewline =>
    by_cases none : FinalNewline.finalRun s.tokens = 0
    · cases read : s.tokens[v.pos]? with
      | none => simp [edits, none, read] at asks
      | some token =>
        have same : finalNewline.edits s.terminator s.tokens v.pos =
            [(v.pos, token ++ s.terminator)] := by
          simp [edits, none, read]
        have free : done v.pos = .none := untouched v.pos (by simp [same, Slots.find])
        have shown : t.content v.pos = some token := by
          rw [Session.content, edited.batch_eq, idle, edited.landed.tokens, free, read]
          rfl
        simp only [fix, FinalNewline.fix, none, BEq.rfl, if_true]
        refine single_heeds reported edited idle calm lands untouched _ same rfl
          (by simp [read, Request.rewrite]) ?_
        rw [Session.perform, Session.appendNewline, Session.append, Session.modify, shown,
          edited.terminator_eq]
    · simp only [fix, FinalNewline.fix, beq_iff_eq, none, if_false]
      exact clearAll_heeds reported edited idle calm lands untouched _ (Or.inl ⟨rfl, none⟩)
        (by simp [edits, none])
  | blankLines =>
    exact clearAll_heeds reported edited idle calm lands untouched _ (Or.inr rfl) rfl

end Fix

/-- A rule that is alone gets all it wishes for, and everything it asks for is granted. -/
theorem sweep_alone (idle : s.batch = none) (calm : s.conflict = false)
    (lands : ∀ q c, rule.wishAt s.terminator [] s.tokens q = some c → s.Lands q c) :
    Edited (rule.wishAt s.terminator [] s.tokens) s ((rule.sweep s.tokens).run s).session ∧
      ∀ e ∈ (rule.sweep s.tokens).trace s, rule.Heeds s.terminator s.tokens e := by
  let want (v : Violation) (q : Nat) := Slots.find q (rule.edits s.terminator s.tokens v.pos)
  have part : ∀ v ∈ rule.check s.tokens, ∀ done t, Edited done s t →
      (∀ q, True → (want v q).isSome → done q = none) →
      Edited (fun q => (done q).or (want v q)) s ((rule.fix s.tokens v.pos).run t).session ∧
        ∀ e ∈ (rule.fix s.tokens v.pos).trace t, rule.Heeds s.terminator s.tokens e := by
    intro v reported done t edited untouched
    exact ⟨fix_edited reported edited idle calm lands fun q _ => untouched q trivial,
      fix_heeds reported edited idle calm lands fun q => untouched q trivial⟩
  have apart : (rule.check s.tokens).Pairwise fun v w => ∀ q, True → (want v q).isSome →
      want w q = none := (pairwise_edits rule s.terminator s.tokens).imp fun apart q _ => apart q
  constructor
  · have swept := (Edited.refl s).forEach want
      (fun v reported done t edited untouched => (part v reported done t edited untouched).1) apart
      (fun _ _ _ _ _ => rfl)
    refine swept.congr fun q => ?_
    rw [Option.none_or]
    exact findSome?_edits rule s.terminator s.tokens q
  · let granted (exchanges : List Exchange) : Prop :=
      ∀ e ∈ exchanges, rule.Heeds s.terminator s.tokens e
    have joined (front back : List Exchange) (first : granted front) (second : granted back) :
        granted (front ++ back) := List.forall_mem_append.mpr ⟨first, second⟩
    exact (Edited.refl s).forEach_trace want (List.forall_mem_nil _) joined part apart
      (fun _ _ _ _ _ => rfl)

/-! ### What changes -/

theorem blank_of_wishAt (blanks : rule = trailingBlanks ∨ ∃ width, rule = tabIndent width)
    (wished : rule.wishAt terminator [] tokens pos = some c) : (tokens[pos]?).any isBlankRun := by
  rw [wishAt_eq] at wished
  obtain ⟨token, read, wished⟩ := Option.bind_eq_some_iff.mp wished
  rw [read, Option.any_some]
  rcases blanks with rfl | ⟨width, rfl⟩
  · simp only [wish, Option.ite_none_right_eq_some, Bool.and_eq_true] at wished
    exact wished.1.1
  · simp only [wish, Option.ite_none_right_eq_some, Bool.and_eq_true] at wished
    exact wished.1.1.2

theorem mem_edits_of_blanks (blanks : rule = trailingBlanks ∨ ∃ width, rule = tabIndent width)
    (terminator : Text) (reported : v ∈ rule.check tokens) :
    (∃ c, (pos, c) ∈ rule.edits terminator tokens v.pos) ↔
      pos = v.pos ∧ (tokens[pos]?).any isBlankRun := by
  constructor
  · rintro ⟨c, asked⟩
    exact ⟨fst_of_mem_edits blanks asked,
      blank_of_wishAt blanks ((mem_edits_iff rule).mp ⟨v, reported, asked⟩)⟩
  · rintro ⟨rfl, -⟩
    obtain ⟨⟨q, c⟩, asked⟩ := List.exists_mem_of_ne_nil _ (edits_ne_nil terminator reported)
    obtain rfl : q = v.pos := fst_of_mem_edits blanks asked
    exact ⟨c, asked⟩

theorem pos_of_finalNewline (reported : v ∈ finalNewline.check tokens) :
    FinalNewline.finalRun tokens = 0 ∧ v.pos + 1 = tokens.length ∨
      FinalNewline.finalRun tokens ≠ 0 ∧
        v.pos + FinalNewline.finalRun tokens = tokens.length := by
  have fits := finalRun_le tokens
  simp only [check, FinalNewline.check, Bool.or_eq_true, List.isEmpty_iff, beq_iff_eq] at reported
  split at reported
  case isTrue => cases reported
  case isFalse other =>
    have some := List.length_pos_of_ne_nil (not_or.mp other).1
    split at reported
    case isTrue none =>
      obtain rfl := List.mem_singleton.mp reported
      exact Or.inl ⟨none, by simp only [Violation.on]; omega⟩
    case isFalse more =>
      obtain rfl := List.mem_singleton.mp reported
      exact Or.inr ⟨more, by simp only [Violation.on]; omega⟩

theorem mem_edits_of_finalNewline (terminator : Text) (reported : v ∈ finalNewline.check tokens) :
    (∃ c, (pos, c) ∈ finalNewline.edits terminator tokens v.pos) ↔
      finalNewline.Concerns tokens v.pos pos := by
  rcases pos_of_finalNewline reported with ⟨none, last⟩ | ⟨more, start⟩
  · have inside : v.pos < tokens.length := by omega
    have other : BlankLines.newlineAt tokens v.pos = false := by
      by_contra newline
      have reaches := (all_drop_iff (Nat.le_of_lt inside)).mp (by
        rw [all_drop inside, List.drop_eq_nil_of_le (by omega)]
        simpa [BlankLines.newlineAt, inside] using newline)
      omega
    simp only [edits, Concerns, none, other, if_true, if_false, Bool.false_eq_true,
      List.getElem?_eq_getElem inside]
    constructor
    · rintro ⟨c, asked⟩
      obtain ⟨rfl, -⟩ := Prod.mk.inj (List.mem_singleton.mp asked)
      exact ⟨inside, rfl, last⟩
    · rintro ⟨-, rfl, -⟩
      exact ⟨_, List.mem_singleton.mpr rfl⟩
  · have newlines : ∀ q, v.pos ≤ q → q < tokens.length → BlankLines.newlineAt tokens q := by
      intro q later inside
      exact newlineAt_of_finalRun inside (by omega)
    have first := newlines v.pos (Nat.le_refl _) (by omega)
    simp only [edits, Concerns, more, first, if_true, if_false, List.mem_map, List.mem_range'_1,
      Prod.mk.injEq]
    constructor
    · rintro ⟨_, q, range, rfl, -⟩
      exact ⟨by omega, by omega, newlines⟩
    · rintro ⟨inside, later, -⟩
      exact ⟨[], pos, by omega, rfl, rfl⟩

theorem concerns_iff (terminator : Text) (reported : v ∈ rule.check tokens) :
    rule.Concerns tokens v.pos pos ↔ ∃ c, (pos, c) ∈ rule.edits terminator tokens v.pos := by
  cases rule with
  | trailingBlanks => exact (mem_edits_of_blanks (Or.inl rfl) terminator reported).symm
  | tabIndent width => exact (mem_edits_of_blanks (Or.inr ⟨width, rfl⟩) terminator reported).symm
  | finalNewline => exact (mem_edits_of_finalNewline terminator reported).symm
  | blankLines =>
    obtain ⟨⟨start, stop⟩, member, rfl⟩ := List.mem_map.mp reported
    have found := BlankLines.mem_runs.mp member
    constructor
    · rintro ⟨start', stop', found', same, lower, upper⟩
      obtain rfl : start = start' := Nat.add_right_cancel same
      exact ⟨[], (mem_edits_of_isRun found').mpr ⟨rfl, lower, upper⟩⟩
    · rintro ⟨c, asked⟩
      obtain ⟨-, lower, upper⟩ := (mem_edits_of_isRun found).mp asked
      exact ⟨start, stop, found, rfl, lower, upper⟩

theorem wish_ne {before after : List Text} {token : Text} (shows : token ≠ [])
    (ends : terminator ≠ []) (wished : rule.wish terminator before token after = some c) :
    c ≠ token := by
  cases rule with
  | trailingBlanks =>
    simp only [wish, Option.ite_none_right_eq_some, Option.some.injEq] at wished
    obtain ⟨-, rfl⟩ := wished
    exact shows.symm
  | tabIndent width =>
    simp only [wish, Option.ite_none_right_eq_some, Option.some.injEq, Bool.and_eq_true] at wished
    obtain ⟨⟨⟨tabbed, -⟩, -⟩, rfl⟩ := wished
    intro same
    rw [← same, Linter.contains_expand] at tabbed
    cases tabbed
  | finalNewline =>
    rw [wish] at wished
    split at wished
    · simp only [Option.ite_none_right_eq_some, Option.some.injEq] at wished
      obtain ⟨-, rfl⟩ := wished
      exact shows.symm
    · simp only [Option.ite_none_right_eq_some, Option.some.injEq] at wished
      obtain ⟨-, rfl⟩ := wished
      simpa using ends
  | blankLines =>
    simp only [wish, Option.ite_none_right_eq_some, Option.some.injEq] at wished
    obtain ⟨-, rfl⟩ := wished
    exact shows.symm

/-- The tokens of a text on which a rule gets its wishes change where it reports something. -/
theorem changes_iff (cut : Text.WellCut tokens) (ends : terminator ≠ []) :
    (rule.wishAt terminator [] tokens pos).or tokens[pos]? ≠ tokens[pos]? ↔
      ∃ v ∈ rule.check tokens, rule.Concerns tokens v.pos pos := by
  have wanted : (∃ v ∈ rule.check tokens, rule.Concerns tokens v.pos pos) ↔
      ∃ c, rule.wishAt terminator [] tokens pos = some c := by
    simp only [← mem_edits_iff rule]
    constructor
    · rintro ⟨v, reported, about⟩
      obtain ⟨c, asked⟩ := (concerns_iff terminator reported).mp about
      exact ⟨c, v, reported, asked⟩
    · rintro ⟨c, v, reported, asked⟩
      exact ⟨v, reported, (concerns_iff terminator reported).mpr ⟨c, asked⟩⟩
  rw [wanted]
  cases wished : rule.wishAt terminator [] tokens pos with
  | none => simp
  | some c =>
    obtain ⟨token, read, wish⟩ := Option.bind_eq_some_iff.mp (wishAt_eq rule .. ▸ wished)
    have shows := Text.ne_nil_of_isLexeme (cut.lexemes token (List.mem_of_getElem? read))
    simp [read, wish_ne shows ends wish]

/-! ### One sweep -/

/-- A rule that mends all its violations on a fresh session is granted every request, changes just
the tokens that these are about, leaves no batch and no conflict, and has nothing left to report. -/
theorem sweep_suffices (rule : Rule) (text : Text) :
    let fresh := Session.new (segment text)
    let swept := ((rule.sweep fresh.tokens).run fresh).session
    (∀ e ∈ (rule.sweep fresh.tokens).trace fresh, e.step.accepted = true ∧
      ∀ pos, e.request.target? = some pos → ∃ token, fresh.tokens[pos]? = some token ∧
        swept.tokens[pos]? = some (e.request.rewrite fresh.terminator token)) ∧
    (∀ pos, swept.tokens[pos]? ≠ fresh.tokens[pos]? ↔
      ∃ v ∈ rule.check fresh.tokens, rule.Concerns fresh.tokens v.pos pos) ∧
    swept.batch = none ∧ swept.conflict = false ∧
    rule.check (segment swept.contents) = [] := by
  intro fresh swept
  have ends : isNewline fresh.terminator := Text.isNewline_dominantTerminator _
  have lands q c (wished : rule.wishAt fresh.terminator [] fresh.tokens q = some c) :
      fresh.Lands q c := Session.lands_new (lt_of_wishAt wished) c none
  obtain ⟨edited, heeds⟩ := sweep_alone rfl rfl lands
  have tokens : ∀ pos, swept.tokens[pos]? =
      (rule.wishAt fresh.terminator [] fresh.tokens pos).or fresh.tokens[pos]? := edited.landed.tokens
  refine ⟨fun e member => ?_, fun pos => ?_, edited.batch_eq, edited.conflict_eq, ?_⟩
  · obtain ⟨accepted, wishes⟩ := heeds e member
    refine ⟨accepted, fun pos target => ?_⟩
    obtain ⟨token, read, wished⟩ := wishes pos target
    exact ⟨token, read, by rw [tokens pos, wished, Option.some_or]⟩
  · rw [tokens pos]
    refine changes_iff (Text.wellCut_segment text) ?_
    rintro empty
    rw [empty] at ends
    cases ends
  · have contents : swept.contents = Linter.sweptText [rule] fresh.terminator text := by
      rw [Session.contents, Linter.sweptText]
      congr 1
      apply List.ext_getElem?
      intro pos
      rw [tokens pos, Linter.getElem?_mended, List.findSome?_singleton]
      rfl
    rw [contents]
    exact Linter.clean_alone rule ends text rule (List.mem_singleton.mpr rfl)

end Retouch.Rule
