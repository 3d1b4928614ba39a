import Retouch.Paint
import Retouch.Proofs.Text.Lines

/-!
Painted comparisons. Colours only add codes: without them, a painted comparison is the plain one.
The plain one is the comparison itself up to its last terminator, but with line feeds alone:
carriage returns before line feeds get lost, so that it shows the lines it was given iff there are
none inside.
-/

namespace Retouch

namespace Text

variable {t line rest : Text}

/-- The text with a line feed in place of each carriage return and line feed. -/
def feedsOnly : Text → Text
  | '\r' :: '\n' :: rest => '\n' :: feedsOnly rest
  | c :: rest => c :: feedsOnly rest
  | [] => []

/-! ### Lines -/

theorem lines_of_unbroken (unbroken : ∀ c ∈ line, (c == '\n') = false) :
    lines line = unfinished [line] := by
  rw [lines, splitAt_of_unbroken unbroken]
  rfl

theorem lines_append_feed (unbroken : ∀ c ∈ line, (c == '\n') = false) (rest : Text) :
    lines (line ++ '\n' :: rest) = dropReturn line :: lines rest := by
  have cut : splitAt '\n' (line ++ '\n' :: rest) = line :: splitAt '\n' rest := by
    rw [splitAt_append_cons, splitAt_of_unbroken unbroken]
    rfl
  have some : splitAt '\n' rest ≠ [] := by
    rw [splitAt_eq_splitOn]
    exact List.splitOn_ne_nil _ _
  obtain ⟨piece, pieces, split⟩ := List.exists_cons_of_ne_nil some
  rw [lines, lines, cut, split]
  rfl

theorem lines_ne_nil (some : t ≠ []) : lines t ≠ [] := by
  induction t using lines_induction (· == '\n') with
  | whole line unbroken =>
    rw [lines_of_unbroken unbroken]
    cases line with
    | nil => exact (some rfl).elim
    | cons => simp [unfinished]
  | cut line c rest unbroken feed _ =>
    obtain rfl : c = '\n' := by simpa using feed
    simp [lines_append_feed unbroken]

theorem joinLines_of_unbroken (unbroken : ∀ c ∈ line, (c == '\n') = false) :
    joinLines (lines line) = line := by
  rw [lines_of_unbroken unbroken]
  cases line with
  | nil => rfl
  | cons => exact List.intercalate_singleton

theorem joinLines_append_feed (unbroken : ∀ c ∈ line, (c == '\n') = false) (more : rest ≠ []) :
    joinLines (lines (line ++ '\n' :: rest)) = dropReturn line ++ '\n' :: joinLines (lines rest) := by
  rw [lines_append_feed unbroken, joinLines, List.intercalate_cons_of_ne_nil (lines_ne_nil more),
    List.append_assoc]
  rfl

theorem dropReturn_cases (line : Text) :
    (∃ front, line = front ++ ['\r'] ∧ dropReturn line = front) ∨
      line.getLast? ≠ some '\r' ∧ dropReturn line = line := by
  by_cases returns : line.getLast? = some '\r'
  · refine Or.inl ⟨line.dropLast, (List.dropLast_append_getLast? '\r' returns).symm, ?_⟩
    rw [dropReturn, returns, BEq.rfl, if_pos rfl]
  · exact Or.inr ⟨returns, if_neg (by simpa using returns)⟩

theorem mem_of_mem_lines {c : Char} (member : line ∈ lines t) (inside : c ∈ line) : c ∈ t := by
  induction t using lines_induction (· == '\n') with
  | whole whole unbroken =>
    rw [lines_of_unbroken unbroken] at member
    cases whole with
    | nil => simp [unfinished] at member
    | cons =>
      obtain rfl := List.mem_singleton.mp member
      exact inside
  | cut first d rest unbroken feed ih =>
    obtain rfl : d = '\n' := by simpa using feed
    rw [lines_append_feed unbroken] at member
    rcases List.mem_cons.mp member with rfl | later
    · refine List.mem_append_left _ ?_
      rcases dropReturn_cases first with ⟨front, rfl, dropped⟩ | ⟨-, same⟩
      · rw [dropped] at inside
        exact List.mem_append_left _ inside
      · rwa [same] at inside
    · exact List.mem_append_right _ (List.mem_cons_of_mem _ (ih later))

/-! ### Carriage returns before line feeds -/

theorem hasCrLf_eq_false_iff : hasCrLf t = false ↔ feedsOnly t = t := by
  fun_induction feedsOnly t with
  | case1 rest => simp [hasCrLf]
  | case2 c rest other ih =>
    rw [hasCrLf, ih, List.cons_inj_right]
    exact other
  | case3 => simp [hasCrLf]

theorem feedsOnly_append (unbroken : ∀ c ∈ line, (c == '\n') = false)
    (apart : line.getLast? = some '\r' → rest.head? ≠ some '\n') :
    feedsOnly (line ++ rest) = line ++ feedsOnly rest := by
  induction line with
  | nil => rfl
  | cons c line ih =>
    have kept := ih (List.forall_mem_cons.mp unbroken).2 fun returns =>
      apart (by rw [List.getLast?_cons, returns]; rfl)
    rw [List.cons_append, feedsOnly, kept, List.cons_append]
    rintro later rfl feed
    cases line with
    | nil =>
      rw [List.nil_append] at feed
      exact apart rfl (by rw [feed]; rfl)
    | cons d line =>
      obtain ⟨rfl, -⟩ := List.cons.inj feed
      simpa using unbroken '\n' (by simp)

theorem feedsOnly_of_unbroken (unbroken : ∀ c ∈ line, (c == '\n') = false) :
    feedsOnly line = line := by
  have whole : feedsOnly (line ++ []) = line ++ feedsOnly [] := feedsOnly_append unbroken (by simp)
  rwa [List.append_nil, feedsOnly, List.append_nil] at whole

theorem feedsOnly_append_feed (unbroken : ∀ c ∈ line, (c == '\n') = false) (rest : Text) :
    feedsOnly (line ++ '\n' :: rest) = dropReturn line ++ '\n' :: feedsOnly rest := by
  rcases dropReturn_cases line with ⟨front, rfl, dropped⟩ | ⟨other, same⟩
  · rw [dropped, List.append_assoc]
    exact feedsOnly_append (List.forall_mem_append.mp unbroken).1 (by simp)
  · rw [same]
    exact feedsOnly_append unbroken fun returns => (other returns).elim

/-- Lines put together again are the text with line feeds alone, less the last one. -/
theorem joinLines_lines (t : Text) :
    joinLines (lines t) ++ (if t.getLast? = some '\n' then ['\n'] else []) = feedsOnly t := by
  induction t using lines_induction (· == '\n') with
  | whole line unbroken =>
    have other : line.getLast? ≠ some '\n' := fun last => by
      simpa using unbroken _ (List.mem_of_getLast? last)
    rw [joinLines_of_unbroken unbroken, if_neg other, feedsOnly_of_unbroken unbroken,
      List.append_nil]
  | cut line c rest unbroken feed ih =>
    obtain rfl : c = '\n' := by simpa using feed
    rw [feedsOnly_append_feed unbroken, ← ih]
    by_cases more : rest = []
    · rw [more, lines_append_feed unbroken]
      simp [lines, splitAt, unfinished, joinLines]
    · have last : (line ++ '\n' :: rest).getLast? = rest.getLast? := by
        rw [List.getLast?_append_of_ne_nil _ (List.cons_ne_nil _ _), List.getLast?_cons_of_ne_nil more]
      rw [joinLines_append_feed unbroken more, last, List.append_assoc, List.cons_append]

theorem joinLines_lines_iff (t : Text) :
    (∃ last, (last = [] ∨ isNewline last) ∧ t = joinLines (lines t) ++ last) ↔
      hasCrLf t.dropLast = false := by
  rw [hasCrLf_eq_false_iff]
  induction t using lines_induction (· == '\n') with
  | whole line unbroken =>
    have front : ∀ c ∈ line.dropLast, (c == '\n') = false := fun c member =>
      unbroken c (List.dropLast_subset line member)
    refine iff_of_true ⟨[], Or.inl rfl, ?_⟩ (feedsOnly_of_unbroken front)
    rw [joinLines_of_unbroken unbroken, List.append_nil]
  | cut line c rest unbroken feed ih =>
    obtain rfl : c = '\n' := by simpa using feed
    by_cases more : rest = []
    · subst more
      have joined : joinLines (lines (line ++ ['\n'])) = dropReturn line := by
        rw [lines_append_feed unbroken]
        exact List.intercalate_singleton
      rw [joined, List.dropLast_concat]
      refine iff_of_true ?_ (feedsOnly_of_unbroken unbroken)
      rcases dropReturn_cases line with ⟨front, rfl, dropped⟩ | ⟨-, same⟩
      · exact ⟨['\r', '\n'], Or.inr rfl, by rw [dropped, List.append_assoc]; rfl⟩
      · exact ⟨['\n'], Or.inr rfl, by rw [same]⟩
    · rw [joinLines_append_feed unbroken more, List.dropLast_append_cons,
        List.dropLast_cons_of_ne_nil more, feedsOnly_append_feed unbroken]
      rcases dropReturn_cases line with ⟨front, rfl, dropped⟩ | ⟨-, same⟩
      -- The line feed has come to stand where the carriage return was.
      · simp [dropped]
      · simpa [same] using ih

end Text

namespace Paint

open Text (feedsOnly hasCrLf isNewline joinLines lines)

variable {t line : Text} {style : Style}

def uncoloured : Text → Text
  | '\x1b' :: '[' :: '3' :: '1' :: 'm' :: rest => uncoloured rest
  | '\x1b' :: '[' :: '3' :: '2' :: 'm' :: rest => uncoloured rest
  | '\x1b' :: '[' :: '0' :: 'm' :: rest => uncoloured rest
  | c :: rest => c :: uncoloured rest
  | [] => []

/-! ### Colours -/

theorem reopen_of_plain (code : Text) (plain : '\x1b' ∉ t) : reopen code t = t := by
  induction t with
  | nil => rfl
  | cons c t ih =>
    obtain ⟨other, plain⟩ := List.ne_and_not_mem_of_not_mem_cons plain
    rw [reopen, ih plain]
    rintro _ rfl
    exact (other rfl).elim

theorem uncoloured_append (plain : '\x1b' ∉ t) (rest : Text) :
    uncoloured (t ++ rest) = t ++ uncoloured rest := by
  induction t with
  | nil => rfl
  | cons c t ih =>
    obtain ⟨other, plain⟩ := List.ne_and_not_mem_of_not_mem_cons plain
    rw [List.cons_append, uncoloured, ih plain, List.cons_append]
    all_goals
      rintro _ rfl
      exact (other rfl).elim

theorem diffLine_false (line : Text) : diffLine false line = line := by
  unfold diffLine
  split <;> rfl

theorem uncoloured_paint (opens : ∀ rest, uncoloured (opening style ++ rest) = uncoloured rest)
    (plain : '\x1b' ∉ line) (rest : Text) :
    uncoloured (paint true style line ++ rest) = line ++ uncoloured rest := by
  have closes : uncoloured (reset ++ rest) = uncoloured rest := rfl
  rw [paint, if_pos rfl, reopen_of_plain _ plain, List.append_assoc, List.append_assoc, opens,
    uncoloured_append plain, closes]

theorem uncoloured_diffLine (plain : '\x1b' ∉ line) (rest : Text) :
    uncoloured (diffLine true line ++ rest) = line ++ uncoloured rest := by
  unfold diffLine
  split
  · exact uncoloured_paint (fun _ => rfl) plain rest
  · exact uncoloured_paint (fun _ => rfl) plain rest
  · exact uncoloured_append plain rest

theorem uncoloured_joinLines {lines : List Text} (plain : ∀ line ∈ lines, '\x1b' ∉ line) :
    uncoloured (joinLines (lines.map (diffLine true))) = joinLines lines := by
  induction lines with
  | nil => rfl
  | cons line lines ih =>
    obtain ⟨first, plain⟩ := List.forall_mem_cons.mp plain
    by_cases more : lines = []
    · subst more
      have single := uncoloured_diffLine first []
      rw [List.append_nil] at single
      rw [List.map_singleton, joinLines, joinLines, List.intercalate_singleton,
        List.intercalate_singleton, single]
      exact line.append_nil
    · have feed (rest : Text) : uncoloured (['\n'] ++ rest) = ['\n'] ++ uncoloured rest :=
        uncoloured_append (by decide) rest
      rw [List.map_cons, joinLines, joinLines, List.intercalate_cons_of_ne_nil more,
        List.intercalate_cons_of_ne_nil (List.map_eq_nil_iff.not.mpr more), List.append_assoc,
        uncoloured_diffLine first, feed, ← joinLines, ih plain, List.append_assoc]
      rfl

theorem diff_false (t : Text) : diff false t = joinLines (lines t) := by
  rw [diff, List.map_congr_left fun line _ => diffLine_false line, List.map_id']

/-! ### Comparisons -/

/-- A painted comparison without its codes is the plain one with line feeds alone, less the last of
them. Nothing else is lost iff no carriage return stands before a line feed anywhere else. -/
theorem diff_uncoloured (t : Text) (plain : '\x1b' ∉ t) :
    uncoloured (diff true t) = diff false t ∧
    diff false t ++ (if t.getLast? = some '\n' then ['\n'] else []) = feedsOnly t ∧
    ((∃ last, (last = [] ∨ isNewline last) ∧ t = diff false t ++ last) ↔
      hasCrLf t.dropLast = false) := by
  rw [diff_false]
  refine ⟨?_, Text.joinLines_lines t, Text.joinLines_lines_iff t⟩
  exact uncoloured_joinLines fun line member escape => plain (Text.mem_of_mem_lines member escape)

theorem diff_uncoloured_whole :
    '\x1b' ∉ ['-', 'a', '\r', '\n'] ∧
      diff true ['-', 'a', '\r', '\n'] = ['\x1b', '[', '3', '1', 'm', '-', 'a', '\x1b', '[', '0', 'm'] ∧
      uncoloured (diff true ['-', 'a', '\r', '\n']) = diff false ['-', 'a', '\r', '\n'] ∧
      ∃ last, (last = [] ∨ isNewline last) ∧
        ['-', 'a', '\r', '\n'] = diff false ['-', 'a', '\r', '\n'] ++ last := by
  have plain : '\x1b' ∉ ['-', 'a', '\r', '\n'] := by decide
  obtain ⟨uncoloured, -, whole⟩ := diff_uncoloured _ plain
  exact ⟨plain, by decide, uncoloured, whole.mpr (by decide)⟩

/-- If two lines differ in a carriage return alone, they come out the same. -/
theorem diff_drops_return :
    '\x1b' ∉ ['-', 'a', '\r', '\n', '+', 'a', '\n'] ∧
      diff false ['-', 'a', '\r', '\n', '+', 'a', '\n'] = ['-', 'a', '\n', '+', 'a'] ∧
      ¬∃ last, (last = [] ∨ isNewline last) ∧
        ['-', 'a', '\r', '\n', '+', 'a', '\n'] =
          diff false ['-', 'a', '\r', '\n', '+', 'a', '\n'] ++ last := by
  have shown : diff false ['-', 'a', '\r', '\n', '+', 'a', '\n'] = ['-', 'a', '\n', '+', 'a'] := by
    decide
  refine ⟨by decide, shown, ?_⟩
  rintro ⟨last, -, same⟩
  simp [shown] at same

end Paint

end Retouch
