import Retouch.Proofs.Rule.Runs
import Retouch.Proofs.Slots
import Retouch.Proofs.Text.Segment
import Retouch.Rule

/-!
What a rule wants, token by token. A rule reports violations and mends each of them by a group of
edits; `mem_edits_iff` says that all groups together ask for exactly what the rule wishes at each
token, seen between the tokens before it and after it.
-/

namespace Retouch.Rule

open Text (isNewline isBlankRun)

variable {rule other : Rule} {terminator t c : Text} {before after tokens : List Text} {pos q : Nat}

/-- What the rule wants in place of a token. The tokens before it are given nearest first. -/
def wish (terminator : Text) (before : List Text) (t : Text) (after : List Text) :
    Rule → Option Text
  | trailingBlanks => if isBlankRun t && after.head?.all isNewline then some [] else none
  | tabIndent width =>
    if t.contains '\t' && isBlankRun t && before.head?.all isNewline then
      some (TabIndent.expand width t)
    else none
  | finalNewline =>
    if isNewline t then if after.all isNewline && before.head?.any isNewline then some [] else none
    else if after.isEmpty then some (t ++ terminator) else none
  | blankLines =>
    if isNewline t && !after.all isNewline && 2 ≤ (before.takeWhile isNewline).length then some []
    else none

def wishAt (rule : Rule) (terminator : Text) : List Text → List Text → Nat → Option Text
  | _, [], _ => none
  | before, t :: after, 0 => rule.wish terminator before t after
  | before, t :: after, pos + 1 => rule.wishAt terminator (t :: before) after pos

def edits (rule : Rule) (terminator : Text) (tokens : List Text) (pos : Nat) :
    List (Nat × Text) :=
  match rule with
  | trailingBlanks => [(pos, [])]
  | tabIndent width => (tokens[pos]?).toList.map fun t => (pos, TabIndent.expand width t)
  | finalNewline =>
    let run := FinalNewline.finalRun tokens
    if run = 0 then (tokens[pos]?).toList.map fun t => (pos, t ++ terminator)
    else (List.range' (tokens.length - run + 1) (run - 1)).map fun q => (q, [])
  | blankLines =>
    (List.range' pos ((tokens.drop pos).takeWhile isNewline).length).map fun q => (q, [])

theorem wishAt_eq (rule : Rule) (terminator : Text) (before tokens : List Text) (pos : Nat) :
    rule.wishAt terminator before tokens pos = tokens[pos]?.bind fun t =>
      rule.wish terminator ((tokens.take pos).reverse ++ before) t (tokens.drop (pos + 1)) := by
  induction tokens generalizing before pos with
  | nil => simp [wishAt]
  | cons t after ih =>
    cases pos with
    | zero => simp [wishAt]
    | succ pos => simp [wishAt, ih]

theorem wishAt_append (rule : Rule) (terminator : Text) (front before : List Text) (t : Text)
    (after : List Text) : rule.wishAt terminator before (front ++ t :: after) front.length =
      rule.wish terminator (front.reverse ++ before) t after := by
  simp [wishAt_eq]

theorem isBlankRun_of_isNewline (newline : isNewline t) : isBlankRun t = false := by
  rcases Text.isNewline_iff.mp newline with rfl | rfl | rfl <;> rfl

theorem wish_eq_none_of_newline (newline : isNewline t) (different : rule ≠ other)
    (wished : (rule.wish terminator before t after).isSome) :
    other.wish terminator before t after = none := by
  have solid := isBlankRun_of_isNewline newline
  cases rule <;> cases other <;> simp_all [wish]

/-! ### Trailing blanks -/

theorem mem_badFrom (terminator : Text) (before : List Text) :
    q ∈ TrailingBlanks.badFrom pos tokens ↔
      ∃ i, q = pos + i ∧ trailingBlanks.wishAt terminator before tokens i = some [] := by
  induction tokens generalizing pos before with
  | nil => simp [TrailingBlanks.badFrom, wishAt]
  | cons t after ih =>
    have later : (∃ i, q = pos + (i + 1) ∧
        trailingBlanks.wishAt terminator (t :: before) after i = some []) ↔
        q ∈ TrailingBlanks.badFrom (pos + 1) after := by
      rw [ih (t :: before)]
      simp only [Nat.add_assoc, Nat.add_comm 1]
    rw [← Nat.or_exists_add_one]
    simp only [wishAt, later, wish, TrailingBlanks.badFrom]
    by_cases bad : (isBlankRun t && after.head?.all isNewline) = true
    · simp [bad]
    · simp [bad]

theorem wishAt_trailingBlanks_iff : trailingBlanks.wishAt terminator [] tokens q = some c ↔
    c = [] ∧ q ∈ TrailingBlanks.badFrom 0 tokens := by
  have found : q ∈ TrailingBlanks.badFrom 0 tokens ↔
      trailingBlanks.wishAt terminator [] tokens q = some [] := by
    rw [mem_badFrom terminator []]
    simp
  rw [found, wishAt_eq]
  cases tokens[q]? with
  | none => simp
  | some t =>
    rw [Option.bind_some, wish]
    split
    · simp only [Option.some.injEq, and_true]
      exact eq_comm
    · simp

/-! ### Tabs -/

theorem head?_reverse_take (inside : pos ≤ tokens.length) :
    (tokens.take pos).reverse.head? = if pos = 0 then none else tokens[pos - 1]? := by
  cases pos with
  | zero => simp
  | succ pos =>
    rw [List.head?_reverse, List.getLast?_take]
    simp [List.getElem?_eq_getElem (Nat.lt_of_succ_le inside)]

theorem opensLine_eq (inside : pos ≤ tokens.length) :
    Text.opensLine tokens pos = (tokens.take pos).reverse.head?.all isNewline := by
  rw [head?_reverse_take inside]
  cases pos with
  | zero => simp [Text.opensLine]
  | succ pos => simp [Text.opensLine, List.getElem?_eq_getElem (Nat.lt_of_succ_le inside)]

theorem wishAt_tabIndent_iff {width : Nat} :
    (tabIndent width).wishAt terminator [] tokens q = some c ↔
      ∃ t, tokens[q]? = some t ∧ TabIndent.isBad tokens t q ∧ c = TabIndent.expand width t := by
  rw [wishAt_eq, List.append_nil]
  cases read : tokens[q]? with
  | none => simp
  | some t =>
    have inside : q < tokens.length := (List.getElem?_eq_some_iff.mp read).1
    rw [Option.bind_some, wish, ← opensLine_eq (Nat.le_of_lt inside)]
    by_cases bad : TabIndent.isBad tokens t q
    · rw [if_pos (by exact bad), Option.some.injEq]
      constructor
      · rintro rfl
        exact ⟨t, rfl, bad, rfl⟩
      · rintro ⟨u, same, _, rfl⟩
        rw [Option.some.inj same]
    · rw [if_neg (by exact bad)]
      refine ⟨fun h => by simp at h, ?_⟩
      rintro ⟨u, same, bad', _⟩
      exact (bad (Option.some.inj same ▸ bad')).elim

/-! ### The final terminator -/

/-- The tokens from a position on are terminators iff the final run reaches back to it. -/
theorem all_drop_iff (inside : pos ≤ tokens.length) :
    (tokens.drop pos).all isNewline ↔ tokens.length - pos ≤ FinalNewline.finalRun tokens := by
  rw [FinalNewline.finalRun, BlankLines.le_length_takeWhile_iff (by simp), List.take_reverse,
    Nat.sub_sub_self inside, List.all_reverse]

theorem finalRun_le (tokens : List Text) : FinalNewline.finalRun tokens ≤ tokens.length := by
  rw [FinalNewline.finalRun, ← tokens.length_reverse]
  exact (List.takeWhile_sublist isNewline).length_le

theorem all_drop (inside : pos < tokens.length) : (tokens.drop pos).all isNewline =
    (isNewline tokens[pos] && (tokens.drop (pos + 1)).all isNewline) := by
  rw [List.drop_eq_getElem_cons inside, List.all_cons]

theorem wishAt_finalNewline_iff :
    finalNewline.wishAt terminator [] tokens q = some c ↔
      (0 < q ∧ q < tokens.length ∧ tokens.length - q < FinalNewline.finalRun tokens ∧ c = []) ∨
        (FinalNewline.finalRun tokens = 0 ∧ q + 1 = tokens.length ∧
          ∃ t, tokens[q]? = some t ∧ c = t ++ terminator) := by
  rw [wishAt_eq]
  by_cases inside : q < tokens.length
  · have read : tokens[q]? = some tokens[q] := List.getElem?_eq_getElem inside
    have here := all_drop_iff (Nat.le_of_lt inside)
    have later := all_drop_iff inside
    rw [all_drop inside] at here
    have before := head?_reverse_take (Nat.le_of_lt inside)
    rw [read, Option.bind_some, List.append_nil, wish, before]
    by_cases newline : isNewline tokens[q]
    · have surplus : ((tokens.drop (q + 1)).all isNewline &&
          (if q = 0 then none else tokens[q - 1]?).any isNewline) = true ↔
          0 < q ∧ tokens.length - q < FinalNewline.finalRun tokens := by
        cases q with
        | zero => simp
        | succ q =>
          have first := all_drop_iff (Nat.le_of_lt (Nat.lt_of_succ_lt inside))
          rw [all_drop (Nat.lt_of_succ_lt inside), all_drop inside, newline, Bool.true_and,
            Bool.and_comm] at first
          simp only [Nat.succ_ne_zero, if_false, Nat.add_sub_cancel,
            List.getElem?_eq_getElem (Nat.lt_of_succ_lt inside), Option.any_some, first]
          omega
      have ends : ¬(FinalNewline.finalRun tokens = 0 ∧ q + 1 = tokens.length) := by
        rintro ⟨none, last⟩
        rw [newline, Bool.true_and] at here
        have reaches := here.mp (later.mpr (by omega))
        omega
      rw [if_pos newline]
      by_cases drops : 0 < q ∧ tokens.length - q < FinalNewline.finalRun tokens
      · rw [if_pos (surplus.mpr drops), Option.some.injEq, eq_comm]
        exact ⟨fun empty => Or.inl ⟨drops.1, inside, drops.2, empty⟩,
          fun h => h.elim (fun h => h.2.2.2) (fun h => (ends ⟨h.1, h.2.1⟩).elim)⟩
      · rw [if_neg (fun h => drops (surplus.mp h))]
        refine ⟨fun h => by simp at h, ?_⟩
        rintro (⟨later, _, long, _⟩ | ⟨none, last, _⟩)
        · exact (drops ⟨later, long⟩).elim
        · exact (ends ⟨none, last⟩).elim
    · have short : ¬tokens.length - q < FinalNewline.finalRun tokens := by
        intro long
        have all := here.mpr (Nat.le_of_lt long)
        simp [newline] at all
      rw [if_neg newline]
      by_cases last : q + 1 = tokens.length
      · have none : FinalNewline.finalRun tokens = 0 := by
          by_contra some
          have all := here.mpr (by omega)
          simp [newline] at all
        simp [last, none, eq_comm]
      · have more : (tokens.drop (q + 1)).isEmpty = false := by
          simp
          omega
        simp [last, more, short]
  · have past : tokens[q]? = none := List.getElem?_eq_none (Nat.le_of_not_lt inside)
    simp [past]
    omega

/-! ### Blank lines -/

theorem two_le_length_takeWhile_iff (inside : q ≤ tokens.length) :
    2 ≤ ((tokens.take q).reverse.takeWhile isNewline).length ↔
      2 ≤ q ∧ BlankLines.newlineAt tokens (q - 1) ∧ BlankLines.newlineAt tokens (q - 2) := by
  match q with
  | 0 => simp
  | 1 =>
    have short := (List.takeWhile_sublist isNewline (l := (tokens.take 1).reverse)).length_le
    simp at short ⊢
    omega
  | q + 2 =>
    have second : q + 1 < tokens.length := inside
    have first : q < tokens.length := Nat.lt_of_succ_lt second
    have reversed : (tokens.take (q + 2)).reverse =
        tokens[q + 1] :: tokens[q] :: (tokens.take q).reverse := by
      rw [List.take_add_one, List.take_add_one, List.getElem?_eq_getElem second,
        List.getElem?_eq_getElem first, List.reverse_append, List.reverse_append]
      rfl
    rw [reversed]
    by_cases newline : isNewline tokens[q + 1]
    · by_cases newline' : isNewline tokens[q]
      · simp [BlankLines.newlineAt, first, second, newline, newline']
      · simp [BlankLines.newlineAt, first, second, newline, newline']
    · simp [BlankLines.newlineAt, second, newline]

theorem all_drop_eq_false_iff : (tokens.drop pos).all isNewline = false ↔
    ∃ i, pos ≤ i ∧ i < tokens.length ∧ ¬BlankLines.newlineAt tokens i := by
  rw [List.all_eq_false]
  constructor
  · rintro ⟨t, member, other⟩
    obtain ⟨i, inside, rfl⟩ := List.mem_drop_iff_getElem.mp member
    have inside : pos + i < tokens.length := Nat.add_comm i pos ▸ inside
    exact ⟨pos + i, by omega, inside, by simpa [BlankLines.newlineAt, inside] using other⟩
  · rintro ⟨i, later, inside, other⟩
    refine ⟨tokens[i], List.mem_drop_iff_getElem.mpr ⟨i - pos, by omega, ?_⟩, ?_⟩
    · simp only [Nat.add_sub_cancel' later]
    · simpa [BlankLines.newlineAt, inside] using other

theorem wishAt_blankLines_iff : blankLines.wishAt terminator [] tokens q = some c ↔
    c = [] ∧ ∃ start stop, BlankLines.IsRun tokens start stop ∧ start + 2 ≤ q ∧ q < stop := by
  rw [BlankLines.exists_isRun_iff, wishAt_eq, List.append_nil]
  by_cases inside : q < tokens.length
  · have read : tokens[q]? = some tokens[q] := List.getElem?_eq_getElem inside
    have here : BlankLines.newlineAt tokens q = isNewline tokens[q] := by
      simp [BlankLines.newlineAt, read]
    rw [read, Option.bind_some, wish, here]
    have wanted : (isNewline tokens[q] && !(tokens.drop (q + 1)).all isNewline &&
        decide (2 ≤ ((tokens.take q).reverse.takeWhile isNewline).length)) = true ↔
        2 ≤ q ∧ isNewline tokens[q] ∧ BlankLines.newlineAt tokens (q - 1) ∧
          BlankLines.newlineAt tokens (q - 2) ∧
          ∃ i, q < i ∧ i < tokens.length ∧ ¬BlankLines.newlineAt tokens i := by
      rw [Bool.and_eq_true, Bool.and_eq_true, Bool.not_eq_true', all_drop_eq_false_iff,
        decide_eq_true_eq, two_le_length_takeWhile_iff (Nat.le_of_lt inside)]
      tauto
    split
    case isTrue holds =>
      rw [Option.some.injEq, eq_comm]
      exact (and_iff_left (wanted.mp holds)).symm
    case isFalse fails =>
      refine ⟨fun h => by simp at h, fun h => ?_⟩
      exact (fails (wanted.mpr h.2)).elim
  · have past : tokens[q]? = none := List.getElem?_eq_none (Nat.le_of_not_lt inside)
    simp [past, BlankLines.newlineAt]

/-! ### All edits of a rule -/

theorem mem_edits_finalNewline : (∃ v ∈ FinalNewline.check tokens,
    (q, c) ∈ finalNewline.edits terminator tokens v.pos) ↔
      finalNewline.wishAt terminator [] tokens q = some c := by
  have fits := finalRun_le tokens
  rw [wishAt_finalNewline_iff, FinalNewline.check]
  simp only [edits, Bool.or_eq_true, List.isEmpty_iff, beq_iff_eq]
  by_cases none : FinalNewline.finalRun tokens = 0
  · by_cases empty : tokens = []
    · simp [empty]
    · have last : tokens.length - 1 < tokens.length :=
        Nat.sub_one_lt (Nat.ne_of_gt (List.length_pos_of_ne_nil empty))
      simp [none, empty, Violation.on, List.getElem?_eq_getElem last]
      constructor
      · rintro ⟨rfl, rfl⟩
        exact ⟨by omega, _, List.getElem?_eq_getElem last, rfl⟩
      · rintro ⟨here, t, read, rfl⟩
        obtain rfl : q = tokens.length - 1 := by omega
        obtain ⟨_, rfl⟩ := List.getElem?_eq_some_iff.mp read
        exact ⟨rfl, rfl⟩
  · by_cases single : FinalNewline.finalRun tokens = 1
    · simp [single]
      omega
    · have more : tokens ≠ [] := by
        rintro rfl
        exact none rfl
      simp only [none, single, more, or_self, if_false, List.mem_singleton, exists_eq_left,
        List.mem_map, List.mem_range'_1, Prod.mk.injEq, false_and, or_false]
      constructor
      · rintro ⟨i, range, rfl, rfl⟩
        exact ⟨by omega, by omega, by omega, rfl⟩
      · rintro ⟨_, _, _, rfl⟩
        exact ⟨q, by omega, rfl, rfl⟩

theorem mem_edits_of_isRun {start stop : Nat} (found : BlankLines.IsRun tokens start stop) :
    (q, c) ∈ blankLines.edits terminator tokens (start + 2) ↔
      c = [] ∧ start + 2 ≤ q ∧ q < stop := by
  have long := found.long
  rw [edits, found.length_takeWhile (by omega) (by omega)]
  simp only [List.mem_map, List.mem_range'_1, Prod.mk.injEq]
  constructor
  · rintro ⟨i, range, rfl, rfl⟩
    exact ⟨rfl, by omega, by omega⟩
  · rintro ⟨rfl, _, _⟩
    exact ⟨q, by omega, rfl, rfl⟩

/-- The edits of all violations together are what the rule wishes. -/
theorem mem_edits_iff (rule : Rule) : (∃ v ∈ rule.check tokens,
    (q, c) ∈ rule.edits terminator tokens v.pos) ↔ rule.wishAt terminator [] tokens q = some c := by
  cases rule with
  | trailingBlanks =>
    rw [wishAt_trailingBlanks_iff]
    simp [check, TrailingBlanks.check, Violation.on, edits, and_comm]
  | tabIndent width =>
    rw [wishAt_tabIndent_iff]
    simp [check, TabIndent.check, Violation.on, edits, List.mem_zipIdx_iff_getElem?]
    cases tokens[q]? with
    | none => simp
    | some t =>
      simp only [Option.some.injEq, exists_eq_left']
      rw [eq_comm (a := c)]
  | finalNewline => exact mem_edits_finalNewline
  | blankLines =>
    rw [wishAt_blankLines_iff]
    constructor
    · rintro ⟨v, reported, asked⟩
      obtain ⟨⟨start, stop⟩, member, rfl⟩ := List.mem_map.mp reported
      have found := BlankLines.mem_runs.mp member
      obtain ⟨empty, range⟩ := (mem_edits_of_isRun found).mp asked
      exact ⟨empty, start, stop, found, range⟩
    · rintro ⟨empty, start, stop, found, range⟩
      exact ⟨_, List.mem_map.mpr ⟨_, BlankLines.mem_runs.mpr found, rfl⟩,
        (mem_edits_of_isRun found).mpr ⟨empty, range⟩⟩

theorem nodup_edits (rule : Rule) (terminator : Text) (tokens : List Text) (pos : Nat) :
    ((rule.edits terminator tokens pos).map Prod.fst).Nodup := by
  cases rule with
  | trailingBlanks => simp [edits]
  | tabIndent width =>
    simp only [edits]
    cases tokens[pos]? <;> simp
  | finalNewline =>
    simp only [edits]
    split
    · cases tokens[pos]? <;> simp
    · simp [Function.comp_def, List.nodup_range']
  | blankLines => simp [edits, Function.comp_def, List.nodup_range']

theorem find_edits_iff {rule : Rule} : Slots.find q (rule.edits terminator tokens pos) = some c ↔
    (q, c) ∈ rule.edits terminator tokens pos :=
  Slots.find_eq_some_iff (rule.nodup_edits terminator tokens pos)

theorem isSome_wishAt {v : Violation} (reported : v ∈ rule.check tokens)
    (asked : (Slots.find q (rule.edits terminator tokens v.pos)).isSome) :
    (rule.wishAt terminator [] tokens q).isSome := by
  obtain ⟨c, asked⟩ := Option.isSome_iff_exists.mp asked
  rw [(mem_edits_iff rule).mp ⟨v, reported, find_edits_iff.mp asked⟩]
  rfl

theorem edits_ne_nil (terminator : Text) {v : Violation} (reported : v ∈ rule.check tokens) :
    rule.edits terminator tokens v.pos ≠ [] := by
  cases rule with
  | trailingBlanks => simp [edits]
  | tabIndent width =>
    obtain ⟨⟨t, pos⟩, member, rfl⟩ := List.mem_map.mp reported
    have read := List.mem_zipIdx_iff_getElem?.mp (List.mem_filter.mp member).1
    simp [edits, Violation.on, read]
  | finalNewline =>
    have fits := finalRun_le tokens
    simp only [check, FinalNewline.check, Bool.or_eq_true, List.isEmpty_iff, beq_iff_eq]
      at reported
    split at reported
    · simp at reported
    · rename_i other
      split at reported
      · rename_i none
        have last : tokens.length - 1 < tokens.length := by
          have some := List.length_pos_of_ne_nil (not_or.mp other).1
          omega
        obtain rfl := List.mem_singleton.mp reported
        simp [edits, none, Violation.on, last]
      · rename_i none
        have single := (not_or.mp other).2
        simp [edits, none]
        omega
  | blankLines =>
    obtain ⟨⟨start, stop⟩, member, rfl⟩ := List.mem_map.mp reported
    have found := BlankLines.mem_runs.mp member
    have long := found.long
    exact List.ne_nil_of_mem ((mem_edits_of_isRun found (q := start + 2)).mpr
      ⟨rfl, Nat.le_refl _, by omega⟩)

theorem findSome?_edits (rule : Rule) (terminator : Text) (tokens : List Text) (q : Nat) :
    (rule.check tokens).findSome? (fun v => Slots.find q (rule.edits terminator tokens v.pos)) =
      rule.wishAt terminator [] tokens q := by
  cases found : (rule.check tokens).findSome?
      (fun v => Slots.find q (rule.edits terminator tokens v.pos)) with
  | some c =>
    obtain ⟨v, reported, asked⟩ := List.exists_of_findSome?_eq_some found
    exact ((mem_edits_iff rule).mp ⟨v, reported, find_edits_iff.mp asked⟩).symm
  | none =>
    by_contra wished
    obtain ⟨c, wished⟩ := Option.ne_none_iff_exists'.mp (Ne.symm wished)
    obtain ⟨v, reported, asked⟩ := (mem_edits_iff rule).mpr wished
    have unasked := List.findSome?_eq_none_iff.mp found v reported
    rw [find_edits_iff.mpr asked] at unasked
    cases unasked

theorem check_eq_nil_iff (rule : Rule) (terminator : Text) (tokens : List Text) :
    rule.check tokens = [] ↔ ∀ pos, rule.wishAt terminator [] tokens pos = none := by
  constructor
  · intro clean pos
    by_contra wished
    obtain ⟨c, wished⟩ := Option.ne_none_iff_exists'.mp wished
    obtain ⟨v, reported, -⟩ := (mem_edits_iff rule).mpr wished
    simp [clean] at reported
  · intro content
    by_contra some
    obtain ⟨v, reported⟩ := List.exists_mem_of_ne_nil _ some
    obtain ⟨⟨q, c⟩, member⟩ :=
      List.exists_mem_of_ne_nil _ (edits_ne_nil terminator reported)
    have wished := (mem_edits_iff rule).mp ⟨v, reported, member⟩
    simp [content] at wished

end Retouch.Rule
