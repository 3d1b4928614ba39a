import Retouch.Proofs.Session.Reach
import Retouch.Proofs.Session.Reindent

/-!
Moving indentation inside an open batch. The edits are worked out from the committed tokens and then
put down in the batch, where they take the place of what waited there. So a position that nothing
waits for is moved as the editor shows it, and an edit that waits is overwritten or left unmoved;
`reindent_precedence` says which, and when the outcome is the same as if it had been moved.
-/

namespace Retouch.Session

open Text (isBreak)

variable {s : Session} {batch : Batch} {first last pos : Nat} {change : Int} {t c : Text}

/-- The committed token at a position, if moving the indentation of the range alters it. -/
def movedAt (s : Session) (first last : Nat) (change : Int) (pos : Nat) : Option Text :=
  (s.tokens[pos]?).filter fun t =>
    s.startsLine pos && (first ≤ pos && pos ≤ last) && !t.any isBreak && shifted change t != t

theorem movedAt_eq_some_iff : s.movedAt first last change pos = some t ↔
    s.tokens[pos]? = some t ∧ s.startsLine pos ∧ (first ≤ pos ∧ pos ≤ last) ∧
      t.any isBreak = false ∧ shifted change t ≠ t := by
  simp [movedAt, Option.filter_eq_some_iff, and_assoc]

theorem shiftAt_of_range (s : Session) (first last : Nat) (change : Int) (pos : Nat) :
    (if pos ∈ s.range first last then (s.shiftAt change pos).map Prod.snd else none) =
      (s.movedAt first last change pos).map (shifted change) := by
  unfold movedAt shiftAt
  cases read : s.tokens[pos]? with
  | none => simp
  | some t =>
    have inside : pos < s.tokens.length := (List.getElem?_eq_some_iff.mp read).1
    have within : (decide (first ≤ pos) && decide (pos ≤ last)) = decide (pos ∈ s.range first last) := by
      simp [mem_range, inside]
    simp only [within, Option.filter_some]
    by_cases listed : pos ∈ s.range first last
    · cases s.startsLine pos with
      | false => simp
      | true =>
        cases broken : t.any isBreak with
        | true => simp
        | false =>
          by_cases same : shifted change t = t
          · simp [same]
          · simp [listed, same]
    · simp [listed]

/-! ### The batch -/

theorem reindent_of_open (opened : s.batch = some batch) (calm : s.conflict = false)
    (source : String) (first last : Nat) (change : Int) :
    (s.reindent source first last change).accepted = true ∧
      (s.reindent source first last change).session =
        { s with batch := some (s.shifts first last change batch) } := by
  have filled := replaceAll_of_open opened calm source
    ((s.range first last).filterMap (s.shiftAt change))
  simp only [reindent, batchOpen, opened, Option.isSome_some, if_true, filled, true_and]
  rfl

/-- The committed tokens that move come before what the editor showed. -/
theorem content_reindent (opened : s.batch = some batch) (calm : s.conflict = false)
    (source : String) (first last : Nat) (change : Int) (pos : Nat) :
    (s.reindent source first last change).session.content pos =
      ((s.movedAt first last change pos).map (shifted change)).or (s.content pos) := by
  rw [(reindent_of_open opened calm source first last change).2]
  simp only [content, opened, Option.bind_some]
  rw [get?_shifts, shiftAt_of_range, Option.or_assoc]

theorem content_of_absent (opened : s.batch = some batch) (absent : batch.get? pos = none) :
    s.content pos = s.tokens[pos]? := by
  rw [content, opened, Option.bind_some, absent, Option.none_or]

theorem content_of_waiting (opened : s.batch = some batch) (waits : batch.get? pos = some c) :
    s.content pos = some c := by
  rw [content, opened, Option.bind_some, waits, Option.some_or]

/-- With a batch open, a position whose committed token moves shows that token moved, whatever
waited there. So the text shown there moves iff nothing waits or what waits comes out the same. -/
theorem reindent_precedence {base : List Text} (reached : Reaches base s)
    (opened : s.batch = some batch) (source : String) (first last : Nat) (change : Int) :
    let step := s.reindent source first last change
    step.accepted = true ∧ (∃ later, step.session = { s with batch := some later }) ∧
    (∀ pos, step.session.content pos =
      ((s.movedAt first last change pos).map (shifted change)).or (s.content pos)) ∧
    ∀ pos c, first ≤ pos → pos ≤ last → s.startsLine pos → s.content pos = some c →
      c.any isBreak = false →
      (step.session.content pos = some (shifted change c) ↔
        ∀ waiting ∈ batch.get? pos, match s.movedAt first last change pos with
          | some t => shifted change t = shifted change waiting
          | none => shifted change waiting = waiting) := by
  intro step
  have calm : s.conflict = false := by
    by_contra raised
    have idle := reached.exclusive (eq_true_of_ne_false raised)
    simp [opened] at idle
  obtain ⟨accepted, session⟩ := reindent_of_open opened calm source first last change
  have shows := content_reindent opened calm source first last change
  refine ⟨accepted, ⟨_, session⟩, shows, ?_⟩
  intro pos c lower upper starts shown unbroken
  rw [show step.session.content pos = _ from shows pos, shown]
  cases waits : batch.get? pos with
  | none =>
    -- The editor shows the committed token, so that the two cannot differ.
    have read : s.tokens[pos]? = some c := (content_of_absent opened waits).symm.trans shown
    have here (t : Text) : s.movedAt first last change pos = some t ↔
        t = c ∧ shifted change c ≠ c := by
      rw [movedAt_eq_some_iff, read, Option.some.injEq]
      constructor
      · rintro ⟨rfl, -, -, -, moves⟩
        exact ⟨rfl, moves⟩
      · rintro ⟨rfl, moves⟩
        exact ⟨rfl, starts, ⟨lower, upper⟩, unbroken, moves⟩
    simp only [Option.mem_def, reduceCtorEq, false_imp_iff, implies_true, iff_true]
    cases moved : s.movedAt first last change pos with
    | some t =>
      obtain ⟨rfl, -⟩ := (here t).mp moved
      rfl
    | none =>
      by_contra other
      rw [Option.map_none, Option.none_or, Option.some.injEq] at other
      rw [(here c).mpr ⟨rfl, fun same => other same.symm⟩] at moved
      cases moved
  | some waiting =>
    obtain rfl : waiting = c :=
      Option.some.inj ((content_of_waiting opened waits).symm.trans shown)
    cases s.movedAt first last change pos with
    | some t => simp
    | none => simp [eq_comm]

def retabbing : Session :=
  let opened := ((new [['a'], ['\n'], [' '], ['b']]).perform "host" .beginBatch).session
  (opened.perform "host" (.replace 2 ['\t', '\t'])).session

/-- The first line moves as it is shown. The second does not: two columns stand where three were
due. -/
theorem reindent_precedence_retabbing :
    let after := (retabbing.reindent "host" 0 3 1).session
    Reaches [['a'], ['\n'], [' '], ['b']] retabbing ∧ retabbing.batch.isSome ∧
      after.content 0 = some [' ', 'a'] ∧
      retabbing.content 2 = some ['\t', '\t'] ∧ after.content 2 = some [' ', ' '] ∧
      after.content 2 ≠ some (shifted 1 ['\t', '\t']) := by
  intro after
  have reached : Reaches [['a'], ['\n'], [' '], ['b']] retabbing :=
    ((Reaches.new _).perform _ _).perform _ _
  obtain ⟨-, -, shows, moves⟩ := reindent_precedence reached rfl "host" 0 3 1
  refine ⟨reached, rfl, ?_, rfl, (shows 2).trans rfl, ?_⟩
  · exact (moves 0 ['a'] (by decide) (by decide) rfl rfl rfl).mpr fun _ held =>
      (Option.not_mem_none _ held).elim
  · intro same
    have alike : shifted 1 [' '] = shifted 1 ['\t', '\t'] :=
      (moves 2 ['\t', '\t'] (by decide) (by decide) rfl rfl rfl).mp same _ rfl
    exact absurd alike (by decide)

/-- A text that waits in the batch is lost: it is overwritten by the moved text that it was to
replace. -/
theorem reindent_drops_waiting :
    let opened := ((new [['x']]).perform "host" .beginBatch).session
    let waiting := (opened.perform "host" (.replace 0 ['y'])).session
    Reaches [['x']] waiting ∧ waiting.batch.isSome ∧ waiting.conflict = false ∧
      waiting.startsLine 0 = true ∧ waiting.content 0 = some ['y'] ∧
      (waiting.reindent "host" 0 0 2).session.content 0 = some [' ', ' ', 'x'] ∧
      shifted 2 ['y'] = [' ', ' ', 'y'] :=
  ⟨((Reaches.new _).perform _ _).perform _ _, rfl, rfl, rfl, rfl, rfl, rfl⟩

end Retouch.Session
