import Mathlib.Data.List.SplitBy
import Retouch.Proofs.Text.Lines
import Retouch.Proofs.Text.Terminators

/-!
The rows of a text: its lines, each with the terminator that ends it. A line feed, a carriage return
and the two together end a line, as they do in the cut into tokens, and `segment_eq_flatMap` says
that the tokens of a text are those of its rows. Rows put together make up a text with these rows,
unless a carriage return comes to stand before a line feed.
-/

namespace Retouch.Text

/-- A line and the terminator that ends it; the last line of a text has none. -/
structure Row where
  line : Text
  ending : Text
  deriving DecidableEq, Repr

namespace Row

def text (row : Row) : Text := row.line ++ row.ending

def tokens (row : Row) : List Text := segment row.line ++ segment row.ending

def lead (t : Text) (row : Row) : Row := { row with line := t ++ row.line }

/-- The terminators of the two rows read as one if the second directly follows the first. -/
def Meets (row next : Row) : Prop := row.ending = ['\r'] ∧ next.line = [] ∧ next.ending = ['\n']

end Row

/-- The rows of a text. A carriage return takes a line feed right after it along. -/
def rows : Text → List Row
  | [] => [⟨[], []⟩]
  | '\r' :: '\n' :: rest => ⟨[], ['\r', '\n']⟩ :: rows rest
  | c :: rest => if isBreak c then ⟨[], [c]⟩ :: rows rest else (rows rest).modifyHead (Row.lead [c])

/-- Lines without breaks, all but the last with a terminator. -/
inductive Ruled : List Row → Prop
  | last {line : Text} (unbroken : ∀ c ∈ line, isBreak c = false) : Ruled [⟨line, []⟩]
  | cons {row : Row} {rest : List Row} (unbroken : ∀ c ∈ row.line, isBreak c = false)
    (newline : isNewline row.ending) (later : Ruled rest) : Ruled (row :: rest)

variable {line ending rest : Text} {rs : List Row}

/-! ### Row by row -/

theorem rows_append (unbroken : ∀ c ∈ line, isBreak c = false) (rest : Text) :
    rows (line ++ rest) = (rows rest).modifyHead (Row.lead line) := by
  induction line with
  | nil =>
    rw [List.nil_append]
    cases rows rest <;> rfl
  | cons c line ih =>
    obtain ⟨first, unbroken⟩ := List.forall_mem_cons.mp unbroken
    have other : c ≠ '\r' := by
      rintro rfl
      cases first
    rw [List.cons_append, rows, first, if_neg Bool.false_ne_true, ih unbroken]
    · cases rows rest <;> rfl
    · exact fun _ same _ => other same

theorem rows_of_unbroken (unbroken : ∀ c ∈ line, isBreak c = false) : rows line = [⟨line, []⟩] := by
  have single := rows_append unbroken []
  rw [List.append_nil] at single
  rw [single, rows, List.modifyHead_cons, Row.lead, List.append_nil]

theorem rows_append_newline (unbroken : ∀ c ∈ line, isBreak c = false) (newline : isNewline ending)
    (apart : ending = ['\r'] → rest.head? ≠ some '\n') :
    rows (line ++ ending ++ rest) = ⟨line, ending⟩ :: rows rest := by
  have first : rows (ending ++ rest) = ⟨[], ending⟩ :: rows rest := by
    rcases isNewline_iff.mp newline with rfl | rfl | rfl
    · rfl
    · rfl
    · have other : ∀ later, rest ≠ '\n' :: later := by
        rintro later rfl
        exact apart rfl rfl
      rw [List.singleton_append, rows]
      · rfl
      · exact fun later _ same => other later same
  rw [List.append_assoc, rows_append unbroken, first, List.modifyHead_cons, Row.lead, List.append_nil]

theorem rows_induction {motive : Text → Prop}
    (whole : ∀ line, (∀ c ∈ line, isBreak c = false) → motive line)
    (cut : ∀ line ending rest, (∀ c ∈ line, isBreak c = false) → isNewline ending →
      (ending = ['\r'] → rest.head? ≠ some '\n') → motive rest → motive (line ++ ending ++ rest))
    (text : Text) : motive text := by
  induction length : text.length using Nat.strong_induction_on generalizing text with
  | _ n ih =>
    rcases unbroken_or_first isBreak text with unbroken | ⟨line, c, rest, rfl, breaks, unbroken⟩
    · exact whole text unbroken
    · rw [List.length_append, List.length_cons] at length
      have next : (c = '\r' ∧ ∃ later, rest = '\n' :: later) ∨
          isNewline [c] ∧ ([c] = ['\r'] → rest.head? ≠ some '\n') := by
        rcases (by simpa [isBreak] using breaks : c = '\n' ∨ c = '\r') with rfl | rfl
        · exact Or.inr ⟨rfl, fun same => absurd same (by decide)⟩
        · by_cases follows : rest.head? = some '\n'
          · exact Or.inl ⟨rfl, List.head?_eq_some_iff.mp follows⟩
          · exact Or.inr ⟨rfl, fun _ => follows⟩
      rcases next with ⟨rfl, later, rfl⟩ | ⟨newline, apart⟩
      · rw [List.length_cons] at length
        have step := cut line ['\r', '\n'] later unbroken rfl (by simp)
          (ih later.length (by omega) later rfl)
        simpa using step
      · have step := cut line [c] rest unbroken newline apart (ih rest.length (by omega) rest rfl)
        simpa using step

theorem ruled_rows (text : Text) : Ruled (rows text) := by
  induction text using rows_induction with
  | whole line unbroken =>
    rw [rows_of_unbroken unbroken]
    exact .last unbroken
  | cut line ending rest unbroken newline apart ih =>
    rw [rows_append_newline unbroken newline apart]
    exact .cons unbroken newline ih

/-- The rows of a text make it up. -/
theorem flatMap_rows (text : Text) : (rows text).flatMap Row.text = text := by
  induction text using rows_induction with
  | whole line unbroken => simp [rows_of_unbroken unbroken, Row.text]
  | cut line ending rest unbroken newline apart ih =>
    rw [rows_append_newline unbroken newline apart, List.flatMap_cons, ih, Row.text]

theorem Ruled.unbroken (ruled : Ruled rs) {row : Row} (member : row ∈ rs) :
    ∀ c ∈ row.line, isBreak c = false := by
  induction ruled with
  | last unbroken =>
    obtain rfl := List.mem_singleton.mp member
    exact unbroken
  | cons unbroken _ _ ih =>
    rcases List.mem_cons.mp member with rfl | later
    · exact unbroken
    · exact ih later

theorem Ruled.uncons {row : Row} (ruled : Ruled (row :: rs)) (more : rs ≠ []) :
    isNewline row.ending ∧ Ruled rs := by
  cases ruled with
  | last => exact (more rfl).elim
  | cons _ newline later => exact ⟨newline, later⟩

theorem Ruled.mapLine {f : Text → Text} (ruled : Ruled rs)
    (keeps : ∀ line : Text, (∀ c ∈ line, isBreak c = false) → ∀ c ∈ f line, isBreak c = false) :
    Ruled (rs.map fun row => { row with line := f row.line }) := by
  induction ruled with
  | last unbroken => exact .last (keeps _ unbroken)
  | cons unbroken newline _ ih => exact .cons (keeps _ unbroken) newline ih

theorem Ruled.isNewline_ending {above below : List Row} {row : Row}
    (ruled : Ruled (above ++ row :: below)) (more : below ≠ []) : isNewline row.ending := by
  induction above with
  | nil => exact (ruled.uncons more).1
  | cons first above ih => exact ih (ruled.uncons (by simp)).2

/-! ### Rows put together -/

theorem Ruled.head?_flatMap (ruled : Ruled rs) : (rs.flatMap Row.text).head? = some '\n' ↔
    ∃ row ∈ rs.head?, row.line = [] ∧ row.ending = ['\n'] := by
  have solid {c : Char} {line : Text} (unbroken : ∀ d ∈ c :: line, isBreak d = false) : c ≠ '\n' := by
    rintro rfl
    cases unbroken '\n' List.mem_cons_self
  cases ruled with
  | @last line unbroken =>
    cases line with
    | nil => simp [Row.text]
    | cons c line => simp [Row.text, solid unbroken]
  | @cons row rest unbroken newline later =>
    obtain ⟨line, ending⟩ := row
    cases line with
    | nil => rcases isNewline_iff.mp newline with rfl | rfl | rfl <;> simp [Row.text]
    | cons c line => simp [Row.text, solid unbroken]

/-- Rows whose terminators stay apart are the rows of the text that they make up. -/
theorem Ruled.rows_flatMap (ruled : Ruled rs) (apart : rs.IsChain fun row next => ¬row.Meets next) :
    rows (rs.flatMap Row.text) = rs := by
  induction ruled with
  | last unbroken => simp [Row.text, rows_of_unbroken unbroken]
  | @cons row rest unbroken newline later ih =>
    obtain ⟨next, apart⟩ := List.isChain_cons.mp apart
    rw [List.flatMap_cons, Row.text, rows_append_newline unbroken newline, ih apart]
    intro feed follows
    obtain ⟨row', first, empty, ends⟩ := later.head?_flatMap.mp follows
    exact next row' first ⟨feed, empty, ends⟩

theorem Ruled.length_rows (ruled : Ruled rs) : (rows (rs.flatMap Row.text)).length ≤ rs.length ∧
    ((rows (rs.flatMap Row.text)).length = rs.length →
      rs.IsChain fun row next => ¬row.Meets next) := by
  induction ruled with
  | last unbroken => simp [Row.text, rows_of_unbroken unbroken]
  | @cons row rest unbroken newline later ih =>
    obtain ⟨fewer, apart⟩ := ih
    by_cases meets : row.ending = ['\r'] ∧ (rest.flatMap Row.text).head? = some '\n'
    · obtain ⟨feed, follows⟩ := meets
      obtain ⟨more, split⟩ := List.head?_eq_some_iff.mp follows
      have joined : rows (row.line ++ ['\r', '\n'] ++ more) = ⟨row.line, ['\r', '\n']⟩ :: rows more :=
        rows_append_newline unbroken rfl (by simp)
      have whole : rows (row.text ++ rest.flatMap Row.text) =
          ⟨row.line, ['\r', '\n']⟩ :: rows more := by
        rw [split, Row.text, feed]
        simpa using joined
      have single : rows ('\n' :: more) = ⟨[], ['\n']⟩ :: rows more := rfl
      rw [split, single, List.length_cons] at fewer
      rw [List.flatMap_cons, whole, List.length_cons, List.length_cons]
      exact ⟨by omega, fun same => by omega⟩
    · have whole : rows (row.text ++ rest.flatMap Row.text) = row :: rows (rest.flatMap Row.text) :=
        rows_append_newline unbroken newline fun feed follows => meets ⟨feed, follows⟩
      rw [List.flatMap_cons, whole, List.length_cons, List.length_cons]
      refine ⟨Nat.succ_le_succ fewer, fun same => ?_⟩
      refine List.isChain_cons.mpr ⟨?_, apart (Nat.succ.inj same)⟩
      rintro next first ⟨feed, empty, ends⟩
      exact meets ⟨feed, later.head?_flatMap.mpr ⟨next, first, empty, ends⟩⟩

theorem isChain_rows (text : Text) : (rows text).IsChain fun row next => ¬row.Meets next := by
  refine (ruled_rows text).length_rows.2 ?_
  rw [flatMap_rows]

/-! ### Rows and tokens -/

theorem unbroken_of_isLexeme {t : Text} (lexeme : isLexeme t) (other : isNewline t = false) :
    ∀ c ∈ t, isBreak c = false := by
  intro c member
  by_contra breaks
  simp [(kind_of_mem lexeme member).1 (eq_true_of_ne_false breaks)] at other

theorem endsLine_of_unbroken (unbroken : ∀ c ∈ line, isBreak c = false) : endsLine line = false := by
  by_contra ends
  obtain ⟨c, last, breaks⟩ := (Option.any_eq_true _ _).mp (eq_true_of_ne_false ends)
  rw [unbroken c (List.mem_of_mem_getLast? last)] at breaks
  cases breaks

theorem unbroken_of_mem_segment {t : Text} (unbroken : ∀ c ∈ line, isBreak c = false)
    (member : t ∈ segment line) : ∀ c ∈ t, isBreak c = false := by
  intro c inside
  refine unbroken c ?_
  rw [← flatten_segment line]
  exact List.mem_flatten_of_mem member inside

theorem isNewline_of_mem_unbroken {t : Text} (unbroken : ∀ c ∈ line, isBreak c = false)
    (member : t ∈ segment line) : isNewline t = false := by
  by_contra newline
  obtain ⟨c, inside⟩ := List.exists_mem_of_ne_nil t
    (ne_nil_of_isLexeme ((wellCut_segment line).lexemes t member))
  have plain := unbroken_of_mem_segment unbroken member c inside
  rw [isBreak_of_mem (eq_true_of_ne_false newline) inside] at plain
  cases plain

theorem segment_append_newline (unbroken : ∀ c ∈ line, isBreak c = false) (newline : isNewline ending)
    (apart : ending = ['\r'] → rest.head? ≠ some '\n') :
    segment (line ++ ending ++ rest) = segment line ++ ending :: segment rest := by
  have cut : segment (line ++ ending ++ rest) = segment (line ++ ending) ++ segment rest := by
    rw [segment_eq_splitBy, segment_eq_splitBy, segment_eq_splitBy]
    refine List.splitBy_append fun c last d first => ?_
    have some : ending ≠ [] := by
      rintro rfl
      cases newline
    rw [List.getLast?_append_of_ne_nil _ some] at last
    have breaks := isBreak_of_mem newline (List.mem_of_mem_getLast? last)
    have apart : c = '\r' → d ≠ '\n' := by
      rintro rfl rfl
      refine apart ?_ first
      rcases isNewline_iff.mp newline with rfl | rfl | rfl
      · simp at last
      · simp at last
      · rfl
    have solid : isBlank c = false := by
      by_contra blank
      simp [isBreak_of_isBlank (eq_true_of_ne_false blank)] at breaks
    simpa [joins, solid, isWord_of_isBreak breaks] using apart
  rw [cut, segment_append_of_breaks (endsLine_of_unbroken unbroken) fun _ => isBreak_of_mem newline,
    segment_of_isNewline newline, List.append_assoc, List.singleton_append]

/-- The tokens of a text are those of its lines and its terminators. -/
theorem segment_eq_flatMap (text : Text) : segment text = (rows text).flatMap Row.tokens := by
  induction text using rows_induction with
  | whole line unbroken => simp [rows_of_unbroken unbroken, Row.tokens, segment]
  | cut line ending rest unbroken newline apart ih =>
    rw [rows_append_newline unbroken newline apart, segment_append_newline unbroken newline apart,
      List.flatMap_cons, ih, Row.tokens, segment_of_isNewline newline, List.append_assoc,
      List.singleton_append]

end Retouch.Text
