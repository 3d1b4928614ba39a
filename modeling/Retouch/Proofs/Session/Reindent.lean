import Retouch.Proofs.Session.Overlay
import Retouch.Proofs.Text.Rows

/-!
Moving the indentation of lines. On a fresh session nothing holds the edits back, so that the batch
they wait in is committed. Each of them is about the first token of a line, and the blanks that a
line starts with are one token: what they make of the tokens is what `reindented` makes of the rows.
-/

namespace Retouch

namespace Text

def shiftLine (change : Int) (line : Text) : Text :=
  if line.isEmpty then []
  else spaces ((line.takeWhile isBlank).length + change).toNat ++ line.dropWhile isBlank

/-- The rows as a text, with the indentation moved of each line whose first token stands in the
range; `pos` tokens stand before the rows. -/
def reindented (first last : Nat) (change : Int) : Nat → List Row → Text
  | _, [] => []
  | pos, row :: rest =>
    (if first ≤ pos && pos ≤ last then shiftLine change row.line else row.line) ++ row.ending ++
      reindented first last change (pos + row.tokens.length) rest

end Text

namespace Session

open Text (isBreak isBlank isBlankRun isNewline endsLine segment rows shiftLine reindented WellCut)

variable {s : Session} {batch : Batch} {first last : Nat} {change : Int} {t line : Text}
  {tokens tail : List Text}

/-! ### The batch -/

theorem replaceAll_of_open (opened : s.batch = some batch) (calm : s.conflict = false)
    (source : String) (edits : List (Nat × Text)) : (replaceAll source edits s).1 =
      { s with batch := some (edits.foldl (fun b e => b.insert e.1 e.2) batch) } := by
  induction edits generalizing s batch with
  | nil => rw [replaceAll, List.foldl_nil, ← opened]
  | cons e rest ih =>
    rw [replaceAll, replace_of_open opened calm]
    exact ih rfl calm

def shifts (s : Session) (first last : Nat) (change : Int) (batch : Batch) : Batch :=
  ((s.range first last).filterMap (s.shiftAt change)).foldl (fun b e => b.insert e.1 e.2) batch

theorem reindent_of_idle (idle : s.batch = none) (calm : s.conflict = false) (source : String)
    (first last : Nat) (change : Int) :
    let closed := ({ s with batch := some (s.shifts first last change ∅) } : Session).endBatch source
    (s.reindent source first last change).accepted = closed.accepted ∧
      (s.reindent source first last change).session = closed.session := by
  intro closed
  have begun := beginBatch_of_idle source idle calm
  have filled := replaceAll_of_open (s := { s with batch := some ∅ }) rfl calm source
    ((s.range first last).filterMap (s.shiftAt change))
  simp only [reindent, batchOpen, idle, Option.isSome_none, Bool.false_eq_true, if_false, begun,
    if_true, filled]
  exact ⟨rfl, rfl⟩

theorem fst_of_shiftAt (pos : Nat) (e : Nat × Text) (asked : s.shiftAt change pos = some e) :
    e.1 = pos := by
  unfold shiftAt at asked
  split at asked
  · split at asked
    · cases asked
    · split at asked
      · cases asked
      · rw [← Option.some.inj asked]
  · cases asked

theorem mem_range (s : Session) (pos : Nat) :
    pos ∈ s.range first last ↔ pos < s.tokens.length ∧ first ≤ pos ∧ pos ≤ last := by
  simp [range]

theorem get?_shifts (s : Session) (first last : Nat) (change : Int) (batch : Batch) (pos : Nat) :
    (s.shifts first last change batch).get? pos = (if pos ∈ s.range first last then
      (s.shiftAt change pos).map Prod.snd else none).or (batch.get? pos) := by
  have distinct : (((s.range first last).filterMap (s.shiftAt change)).map Prod.fst).Nodup :=
    Slots.nodup_keys_filterMap fst_of_shiftAt (List.nodup_range.filter _)
  rw [shifts, Slots.get?_foldl_insert distinct, Slots.find_filterMap fst_of_shiftAt]

/-! ### Fresh sessions -/

theorem shiftAt_or (s : Session) (change : Int) (pos : Nat) :
    ((s.shiftAt change pos).map Prod.snd).or s.tokens[pos]? = s.tokens[pos]?.map fun t =>
      if s.startsLine pos && !t.any isBreak then shifted change t else t := by
  unfold shiftAt
  cases s.startsLine pos with
  | false => simp
  | true =>
    cases s.tokens[pos]? with
    | none => rfl
    | some t =>
      simp only [Option.map_some, Bool.true_and, if_true]
      generalize t.any isBreak = broken
      cases broken with
      | true => simp
      | false =>
        by_cases same : shifted change t = t
        · simp [same]
        · simp [same]

theorem shifts_or (s : Session) (first last : Nat) (change : Int) (pos : Nat) :
    ((s.shifts first last change ∅).get? pos).or s.tokens[pos]? = s.tokens[pos]?.map fun t =>
      if s.startsLine pos && (first ≤ pos && pos ≤ last) && !t.any isBreak then shifted change t
      else t := by
  have absent : (∅ : Batch).get? pos = none := rfl
  rw [get?_shifts, absent, Option.or_none]
  by_cases inside : pos ∈ s.range first last
  · obtain ⟨-, lower, upper⟩ := (mem_range _ _).mp inside
    simp only [inside, lower, upper, if_true, decide_true, Bool.and_self, Bool.and_true]
    exact shiftAt_or s change pos
  · rw [if_neg inside, Option.none_or]
    cases read : s.tokens[pos]? with
    | none => rfl
    | some t =>
      have outside : (decide (first ≤ pos) && decide (pos ≤ last)) = false := by
        by_contra within
        simp only [Bool.not_eq_false, Bool.and_eq_true, decide_eq_true_eq] at within
        exact inside ((mem_range _ _).mpr ⟨(List.getElem?_eq_some_iff.mp read).1, within⟩)
      simp [outside]

theorem reindent_new (tokens : List Text) (source : String) (first last : Nat) (change : Int) :
    let step := (new tokens).reindent source first last change
    step.accepted = true ∧ step.session.batch = none ∧
    ∀ pos, step.session.tokens[pos]? = tokens[pos]?.map fun t =>
      if (new tokens).startsLine pos && (first ≤ pos && pos ≤ last) && !t.any isBreak then
        shifted change t
      else t := by
  intro step
  let waiting : Session :=
    { new tokens with batch := some ((new tokens).shifts first last change ∅) }
  obtain ⟨answer, session⟩ : step.accepted = (waiting.endBatch source).accepted ∧
      step.session = (waiting.endBatch source).session :=
    reindent_of_idle rfl rfl source first last change
  have accepted : (waiting.endBatch source).accepted = true := by
    refine (endBatch_accepted_iff source rfl rfl).mpr fun e member => ?_
    have asked := Slots.mem_entries_iff.mp (show (e.1, e.2) ∈ _ from member)
    rw [get?_shifts] at asked
    split at asked
    case isTrue inside => exact lands_new ((mem_range _ _).mp inside).1 e.2 _
    case isFalse => cases asked
  refine ⟨answer.trans accepted, ?_, fun pos => ?_⟩
  · rw [session]
    exact endBatch_batch waiting source
  · have landed := (endBatch_landed (s := waiting) source rfl rfl).tokens pos
    rw [accepted, if_pos rfl] at landed
    rw [session, landed]
    exact shifts_or (new tokens) first last change pos

/-! ### Token by token -/

/-- The tokens with the first of each line shifted, if it stands in the range; `opens` says whether
the tokens start a line, and `pos` tokens stand before them. -/
def shiftTokens (first last : Nat) (change : Int) : Bool → Nat → List Text → List Text
  | _, _, [] => []
  | opens, pos, t :: rest =>
    (if opens && (first ≤ pos && pos ≤ last) && !t.any isBreak then shifted change t else t) ::
      shiftTokens first last change (endsLine t) (pos + 1) rest

theorem getElem?_shiftTokens (opens : Bool) (pos : Nat) (tokens : List Text) (i : Nat) :
    (shiftTokens first last change opens pos tokens)[i]? = tokens[i]?.map fun t =>
      if (if i = 0 then opens else (tokens[i - 1]?).any endsLine) &&
          (first ≤ pos + i && pos + i ≤ last) && !t.any isBreak then shifted change t
      else t := by
  induction tokens generalizing opens pos i with
  | nil => rfl
  | cons t rest ih =>
    rw [shiftTokens]
    cases i with
    | zero => rfl
    | succ i =>
      have opens : (if i = 0 then endsLine t else (rest[i - 1]?).any endsLine) =
          ((t :: rest)[i]?).any endsLine := by
        cases i <;> rfl
      rw [List.getElem?_cons_succ, ih, List.getElem?_cons_succ, opens, if_neg i.succ_ne_zero,
        Nat.add_right_comm, Nat.add_assoc]
      rfl

theorem reindent_tokens (tokens : List Text) (source : String) (first last : Nat) (change : Int) :
    ((new tokens).reindent source first last change).session.tokens =
      shiftTokens first last change true 0 tokens := by
  apply List.ext_getElem?
  intro pos
  rw [(reindent_new tokens source first last change).2.2 pos, getElem?_shiftTokens, Nat.zero_add]
  have starts : (new tokens).startsLine pos =
      if pos = 0 then true else (tokens[pos - 1]?).any endsLine := by
    unfold startsLine
    by_cases zero : pos = 0
    · simp [zero]
    · simp [zero, new]
  rw [starts]

/-! ### Line by line -/

theorem shiftTokens_of_inside (plain : ∀ t ∈ tokens, endsLine t = false) (pos : Nat) :
    shiftTokens first last change false pos (tokens ++ tail) =
      tokens ++ shiftTokens first last change false (pos + tokens.length) tail := by
  induction tokens generalizing pos with
  | nil => rfl
  | cons t rest ih =>
    obtain ⟨here, plain⟩ := List.forall_mem_cons.mp plain
    rw [List.cons_append, shiftTokens, here, ih plain, List.length_cons, Nat.add_assoc,
      Nat.add_comm 1]
    rfl

/-- The first token of a line holds all of its indentation. -/
theorem shifted_append (cut : WellCut (t :: tokens)) (plain : isNewline t = false) :
    shifted change t ++ tokens.flatten = shiftLine change (t ++ tokens.flatten) := by
  obtain ⟨lexeme, next, cut⟩ := Text.wellCut_cons.mp cut
  have some := Text.ne_nil_of_isLexeme lexeme
  have shows : ¬(t ++ tokens.flatten).isEmpty := by simp [some]
  rw [shifted, shiftLine, if_neg shows]
  cases blanks : isBlankRun t with
  | true =>
    have blank := (Text.isBlankRun_iff.mp blanks).2
    have solid : tokens.flatten.head?.all fun c => !isBlank c := by
      rw [cut.head?_flatten.2]
      exact Text.head?_of_isBlankRun blanks next
    have stops : tokens.flatten.takeWhile isBlank = [] ∧
        tokens.flatten.dropWhile isBlank = tokens.flatten := by
      cases rest : tokens.flatten with
      | nil => exact ⟨rfl, rfl⟩
      | cons c rest' => simpa [rest] using solid
    rw [List.takeWhile_append_of_pos blank, List.dropWhile_append_of_pos blank, stops.1, stops.2,
      List.append_nil, if_pos rfl]
  | false =>
    cases t with
    | nil => exact (some rfl).elim
    | cons c t =>
      have solid := (Text.solid_of_isLexeme lexeme plain blanks c List.mem_cons_self).1
      simp [solid]

theorem flatten_shiftTokens_line (unbroken : ∀ c ∈ line, isBreak c = false) (pos : Nat) :
    (shiftTokens first last change true pos (segment line ++ tail)).flatten =
      (if first ≤ pos && pos ≤ last then shiftLine change line else line) ++
        (shiftTokens first last change line.isEmpty (pos + (segment line).length) tail).flatten := by
  have inside {t : Text} (member : t ∈ segment line) :=
    Text.unbroken_of_mem_segment unbroken member
  cases tokens : segment line with
  | nil =>
    obtain rfl := Text.segment_eq_nil_iff.mp tokens
    simp [shiftLine]
  | cons t rest =>
    have whole := Text.flatten_segment line
    have cut := Text.wellCut_segment line
    rw [tokens] at whole cut inside
    have plain := Text.isNewline_of_mem_unbroken unbroken (tokens ▸ List.mem_cons_self)
    have some : line.isEmpty = false := by
      rw [← whole]
      simp [Text.ne_nil_of_isLexeme (Text.wellCut_cons.mp cut).1]
    have solid : t.any isBreak = false := by simpa using inside List.mem_cons_self
    -- Only the first token is shifted; behind a token that ends no line, none is.
    rw [List.cons_append, shiftTokens, Text.endsLine_of_unbroken (inside List.mem_cons_self),
      shiftTokens_of_inside fun u member =>
        Text.endsLine_of_unbroken (inside (List.mem_cons_of_mem t member)),
      List.flatten_cons, List.flatten_append, some, solid, ← whole, List.flatten_cons,
      ← shifted_append cut plain, List.length_cons, Nat.add_assoc pos, Nat.add_comm 1]
    cases first ≤ pos && pos ≤ last <;> simp

theorem flatten_shiftTokens (text : Text) (pos : Nat) :
    (shiftTokens first last change true pos (segment text)).flatten =
      reindented first last change pos (rows text) := by
  induction text using Text.rows_induction generalizing pos with
  | whole line unbroken =>
    rw [← List.append_nil (segment line), flatten_shiftTokens_line unbroken,
      Text.rows_of_unbroken unbroken]
    simp [reindented, shiftTokens]
  | cut line ending rest unbroken newline apart ih =>
    have breaks : ending.any isBreak = true ∧ endsLine ending = true := by
      rcases Text.isNewline_iff.mp newline with rfl | rfl | rfl <;> exact ⟨rfl, rfl⟩
    rw [Text.segment_append_newline unbroken newline apart, flatten_shiftTokens_line unbroken,
      shiftTokens, breaks.1, breaks.2, Bool.not_true, Bool.and_false, if_neg Bool.false_ne_true,
      List.flatten_cons, ih, Text.rows_append_newline unbroken newline apart, reindented,
      Text.Row.tokens, Text.segment_of_isNewline newline, List.length_append, List.length_singleton,
      Nat.add_assoc, List.append_assoc]

/-- On a fresh session over a text, each line that is not empty and starts in the range gets
`change` spaces more than it had blanks, or none if that is less than none; everything else
stays. -/
theorem reindent_lines (text : Text) (source : String) (first last : Nat) (change : Int) :
    let step := (new (segment text)).reindent source first last change
    step.accepted = true ∧ step.session.batch = none ∧
      step.session.contents = reindented first last change 0 (rows text) := by
  intro step
  obtain ⟨accepted, closed, -⟩ := reindent_new (segment text) source first last change
  refine ⟨accepted, closed, ?_⟩
  rw [contents, reindent_tokens, flatten_shiftTokens]

-- The first line is short of three blanks, the empty one has no indentation to move, and the last
-- one begins behind the range.
example : reindented 0 4 (-3) 0
    (rows [' ', '\t', 'a', '\r', '\n', '\n', ' ', ' ', ' ', ' ', 'b', '\n', ' ', 'c']) =
      ['a', '\r', '\n', '\n', ' ', 'b', '\n', ' ', 'c'] := by
  decide

end Session

end Retouch
