import Mathlib.Data.List.DropRight
import Retouch.Text

/-!
Texts line by line, where `p` tells the characters that end a line. What is read off each line by
itself stays the same under a change at the edge of a line that does not matter to that line.
-/

namespace Retouch.Text

variable {α : Type} {p : Char → Bool} {view : Text → α} {t u left right : Text}

theorem unbroken_or_first (p : Char → Bool) (text : Text) : (∀ c ∈ text, p c = false) ∨
    ∃ line c rest, text = line ++ c :: rest ∧ p c ∧ ∀ d ∈ line, p d = false := by
  cases found : text.find? p with
  | none => exact Or.inl (by simpa using found)
  | some c =>
    obtain ⟨breaks, line, rest, same, unbroken⟩ := List.find?_eq_some_iff_append.mp found
    exact Or.inr ⟨line, c, rest, same, breaks, by simpa using unbroken⟩

theorem unbroken_or_last (p : Char → Bool) (text : Text) : (∀ c ∈ text, p c = false) ∨
    ∃ rest c line, text = rest ++ c :: line ∧ p c ∧ ∀ d ∈ line, p d = false := by
  rcases unbroken_or_first p text.reverse with unbroken | ⟨line, c, rest, same, breaks, unbroken⟩
  · exact Or.inl fun c member => unbroken c (List.mem_reverse.mpr member)
  · refine Or.inr ⟨rest.reverse, c, line.reverse, ?_, breaks, ?_⟩
    · rw [← text.reverse_reverse, same]
      simp
    · exact fun d member => unbroken d (List.mem_reverse.mp member)

theorem lines_induction {motive : Text → Prop} (p : Char → Bool)
    (whole : ∀ line, (∀ c ∈ line, p c = false) → motive line)
    (cut : ∀ line c rest, (∀ d ∈ line, p d = false) → p c → motive rest →
      motive (line ++ c :: rest)) (text : Text) : motive text := by
  induction length : text.length using Nat.strong_induction_on generalizing text with
  | _ n ih =>
    rcases unbroken_or_first p text with unbroken | ⟨line, c, rest, rfl, breaks, unbroken⟩
    · exact whole text unbroken
    · refine cut line c rest unbroken breaks (ih rest.length ?_ rest rfl)
      rw [← length, List.length_append, List.length_cons]
      omega

theorem map_lines_append (unbroken : ∀ c ∈ t, p c = false)
    (same : ∀ line, view (line ++ t) = view line) :
    ((left ++ t).splitOnP p).map view = (left.splitOnP p).map view := by
  have single : ∀ line : Text, (∀ c ∈ line, p c = false) →
      ((line ++ t).splitOnP p).map view = (line.splitOnP p).map view := by
    intro line whole
    rw [List.splitOnP_eq_singleton whole, List.splitOnP_eq_singleton
      (List.forall_mem_append.mpr ⟨whole, unbroken⟩), List.map_singleton, List.map_singleton, same]
  rcases unbroken_or_last p left with whole | ⟨rest, c, line, rfl, breaks, whole⟩
  · exact single left whole
  · rw [List.append_assoc, List.cons_append, List.splitOnP_append_cons _ _ breaks,
      List.splitOnP_append_cons _ _ breaks, List.map_append, List.map_append, single line whole]

theorem map_lines_prepend (unbroken : ∀ c ∈ t, p c = false) (unbroken' : ∀ c ∈ u, p c = false)
    (same : ∀ line, view (t ++ line) = view (u ++ line)) :
    ((t ++ right).splitOnP p).map view = ((u ++ right).splitOnP p).map view := by
  have single : ∀ line : Text, (∀ c ∈ line, p c = false) →
      ((t ++ line).splitOnP p).map view = ((u ++ line).splitOnP p).map view := by
    intro line whole
    rw [List.splitOnP_eq_singleton (List.forall_mem_append.mpr ⟨unbroken, whole⟩),
      List.splitOnP_eq_singleton (List.forall_mem_append.mpr ⟨unbroken', whole⟩),
      List.map_singleton, List.map_singleton, same]
  rcases unbroken_or_first p right with whole | ⟨line, c, rest, rfl, breaks, whole⟩
  · exact single right whole
  · rw [← List.append_assoc, ← List.append_assoc, List.splitOnP_append_cons _ _ breaks,
      List.splitOnP_append_cons _ _ breaks, List.map_append, List.map_append, single line whole]

/-- What does not matter at the end of a line can go there. -/
theorem map_lines_trim (unbroken : ∀ c ∈ t, p c = false) (ends : right.head?.all p)
    (same : ∀ line, view (line ++ t) = view line) :
    ((left ++ t ++ right).splitOnP p).map view = ((left ++ right).splitOnP p).map view := by
  cases right with
  | nil =>
    rw [List.append_nil, List.append_nil]
    exact map_lines_append unbroken same
  | cons c right =>
    have breaks : p c := by simpa using ends
    rw [List.splitOnP_append_cons _ _ breaks, List.splitOnP_append_cons _ _ breaks, List.map_append,
      List.map_append, map_lines_append unbroken same]

/-- What looks the same at the start of a line can stand there in its place. -/
theorem map_lines_indent (unbroken : ∀ c ∈ t, p c = false) (unbroken' : ∀ c ∈ u, p c = false)
    (opens : left.getLast?.all p) (same : ∀ line, view (t ++ line) = view (u ++ line)) :
    ((left ++ t ++ right).splitOnP p).map view = ((left ++ u ++ right).splitOnP p).map view := by
  cases last : left.getLast? with
  | none =>
    rw [List.getLast?_eq_none_iff.mp last]
    exact map_lines_prepend unbroken unbroken' same
  | some c =>
    obtain ⟨left, rfl⟩ := List.getLast?_eq_some_iff.mp last
    have breaks : p c := by simpa using opens
    simp only [List.append_assoc, List.cons_append, List.nil_append]
    rw [List.splitOnP_append_cons _ _ breaks, List.splitOnP_append_cons _ _ breaks, List.map_append,
      List.map_append, map_lines_prepend unbroken unbroken' same]

theorem rdropWhile_append_of_forall {β : Type} {q : β → Bool} {l m : List β} (all : ∀ a ∈ m, q a) :
    (l ++ m).rdropWhile q = l.rdropWhile q := by
  rw [List.rdropWhile, List.rdropWhile, List.reverse_append, List.dropWhile_append_of_pos]
  exact fun a member => all a (List.mem_reverse.mp member)

theorem rdropWhile_append_of_ne_nil {β : Type} {q : β → Bool} {l m : List β}
    (some : m.rdropWhile q ≠ []) : (l ++ m).rdropWhile q = l ++ m.rdropWhile q := by
  rw [List.rdropWhile, Ne, List.reverse_eq_nil_iff] at some
  rw [List.rdropWhile, List.rdropWhile, List.reverse_append, List.dropWhile_append,
    if_neg (by simpa using some), List.reverse_append, List.reverse_reverse]

/-! ### Cuts -/

theorem splitAt_eq_splitOn (sep : Char) (t : Text) : splitAt sep t = t.splitOn sep := by
  induction t with
  | nil => rfl
  | cons c t ih =>
    have step : (c :: t).splitOn sep =
        if c == sep then [] :: t.splitOn sep else (t.splitOn sep).modifyHead (c :: ·) :=
      List.splitOnP_cons_eq_if_modifyHead c t
    obtain ⟨piece, pieces, split⟩ := List.exists_cons_of_ne_nil (List.splitOn_ne_nil sep t)
    rw [splitAt, ih, step, split]
    rfl

theorem splitAt_of_unbroken {sep : Char} (unbroken : ∀ c ∈ t, (c == sep) = false) :
    splitAt sep t = [t] := by
  rw [splitAt_eq_splitOn, List.splitOn, List.splitOnP_eq_singleton unbroken]

theorem splitAt_append_cons (sep : Char) (left right : Text) :
    splitAt sep (left ++ sep :: right) = splitAt sep left ++ splitAt sep right := by
  rw [splitAt_eq_splitOn, splitAt_eq_splitOn, splitAt_eq_splitOn]
  exact List.splitOnP_append_cons _ _ (beq_self_eq_true sep)

theorem not_mem_of_mem_splitAt {sep : Char} (piece : u ∈ splitAt sep t) : sep ∉ u := by
  induction t using lines_induction (· == sep) with
  | whole line unbroken =>
    rw [splitAt_of_unbroken unbroken, List.mem_singleton] at piece
    intro member
    simpa using unbroken sep (piece ▸ member)
  | cut line c rest unbroken breaks ih =>
    obtain rfl : c = sep := beq_iff_eq.mp breaks
    rw [splitAt_append_cons, splitAt_of_unbroken unbroken, List.singleton_append,
      List.mem_cons] at piece
    rcases piece with rfl | later
    · intro member
      simpa using unbroken c member
    · exact ih later

end Retouch.Text
