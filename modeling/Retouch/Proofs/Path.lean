import Mathlib.Data.Char
import Mathlib.Data.List.Lex
import Mathlib.Order.Std
import Retouch.Path
import Retouch.Proofs.Text.Lines

/-!
Paths by their components. Component order is a linear order, a name joined to a path is one more
component, and the name and the extension of a file can be read off its components.
-/

namespace Retouch.Path

variable {p q : Path} {n : Text}

theorem same_iff : p.same q ↔ p.components = q.components := beq_iff_eq

/-! ### Order -/

theorem compare_names_lawful : Std.LawfulCmp fun a b : Text => compareOfLessAndEq a b :=
  .compareOfLessAndEq_of_irrefl_of_trans_of_not_lt_of_antisymm lt_irrefl lt_trans not_lt le_antisymm

namespace Component

instance : Std.TransCmp Component.compare where
  eq_swap {a b} := by
    cases a <;> cases b <;> first
      | rfl
      | exact compare_names_lawful.eq_swap
  isLE_trans {a b c} ab bc := by
    cases a <;> cases b <;> cases c <;> first
      | rfl
      | contradiction
      | exact compare_names_lawful.isLE_trans ab bc

instance : Std.LawfulEqCmp Component.compare where
  compare_self {a} := by
    cases a with
    | root | current | parent => rfl
    | name n => exact compare_names_lawful.compare_self
  eq_of_compare {a b} equal := by
    cases a <;> cases b <;> first
      | rfl
      | contradiction
      | exact congrArg name (compare_names_lawful.eq_of_compare equal)

end Component

theorem compareComponents_eq : compareComponents = List.compareLex Component.compare := by
  funext as bs
  fun_induction compareComponents as bs with
  | case1 | case2 | case3 => rfl
  | case4 a as b bs ih => rw [ih, List.compareLex_cons_cons]

instance : Std.TransCmp compareComponents := compareComponents_eq ▸ inferInstance

instance : Std.LawfulEqCmp compareComponents := compareComponents_eq ▸ inferInstance

instance : Std.TransCmp Path.compare where
  eq_swap {p q} := Std.OrientedCmp.eq_swap (a := p.components) (b := q.components)
  isLE_trans {p q _} := Std.TransCmp.isLE_trans (a := p.components) (b := q.components)

theorem compare_eq_iff : p.compare q = .eq ↔ p.components = q.components :=
  Std.LawfulEqCmp.compare_eq_iff_eq (a := p.components) (b := q.components)

/-! ### Names -/

theorem of_name_mem_componentsOf {ps : List Text} (member : .name n ∈ componentsOf ps) :
    n ∈ ps ∧ n ≠ [] ∧ n ≠ ['.'] ∧ n ≠ ['.', '.'] := by
  induction ps with
  | nil => cases member
  | cons piece before ih =>
    rw [componentsOf] at member
    split at member
    case isFalse => exact (ih member).imp_left (List.mem_cons_of_mem piece)
    case isTrue counted =>
      rcases List.mem_cons.mp member with here | later
      · unfold Component.ofPiece at here
        split at here
        · cases here
        split at here
        · cases here
        obtain rfl := Component.name.inj here
        simp_all [counts]
      · exact (ih later).imp_left (List.mem_cons_of_mem piece)

theorem isName_of_mem_components (member : .name n ∈ p.components) : IsName n := by
  have listed : .name n ∈ componentsOf p.pieces := by
    rw [components, List.mem_append, List.mem_reverse] at member
    refine member.resolve_left fun root => ?_
    split at root <;> simp at root
  obtain ⟨piece, some, dot, dots⟩ := of_name_mem_componentsOf listed
  exact ⟨some, Text.not_mem_of_mem_splitAt (List.mem_reverse.mp piece), dot, dots⟩

theorem pieces_append (front n : Text) (whole : '/' ∉ n) :
    pieces ⟨front ++ '/' :: n⟩ = n :: pieces ⟨front⟩ := by
  have unbroken : ∀ c ∈ n, (c == '/') = false :=
    fun c member => beq_eq_false_iff_ne.mpr fun slash => whole (slash ▸ member)
  rw [pieces, Text.splitAt_append_cons, Text.splitAt_of_unbroken unbroken, List.reverse_append]
  rfl

/-- Joining takes a slash at the end of a path for the one between it and the name. -/
theorem text_join (some : p.text ≠ []) (proper : IsName n) : ∃ front,
    (p.join ⟨n⟩).text = front ++ '/' :: n ∧ componentsOf (pieces ⟨front⟩) = componentsOf p.pieces ∧
      (front ++ '/' :: n).head? = p.text.head? := by
  have relative : isAbsolute ⟨n⟩ = false := by
    rw [isAbsolute, beq_eq_false_iff_ne]
    exact fun first => proper.2.1 (List.mem_of_mem_head? first)
  have kept : ¬((isAbsolute ⟨n⟩ || p.text.isEmpty) = true) := by simpa [relative] using some
  rw [join, if_neg kept]
  split
  case isTrue slash =>
    obtain ⟨front, ends⟩ := List.getLast?_eq_some_iff.mp (beq_iff_eq.mp slash)
    refine ⟨front, by simp [ends], ?_, by cases front <;> simp [ends]⟩
    have pieces_eq : p.pieces = [] :: pieces ⟨front⟩ := by
      rw [← pieces_append front [] List.not_mem_nil, pieces, pieces, ends]
    rw [pieces_eq]
    rfl
  case isFalse =>
    exact ⟨p.text, rfl, rfl, by rw [List.head?_append_of_ne_nil _ some]⟩

theorem components_join (some : p.text ≠ []) (proper : IsName n) :
    (p.join ⟨n⟩).components = p.components ++ [.name n] := by
  obtain ⟨front, text, before, first⟩ := text_join some proper
  have absolute : (p.join ⟨n⟩).isAbsolute = p.isAbsolute := by
    rw [isAbsolute, isAbsolute, text, first]
  obtain ⟨nonempty, whole, dot, dots⟩ := proper
  have cut : (p.join ⟨n⟩).pieces = n :: pieces ⟨front⟩ := by
    rw [← pieces_append front n whole, ← text]
  have last : componentsOf (p.join ⟨n⟩).pieces = .name n :: componentsOf p.pieces := by
    have counted : counts n (pieces ⟨front⟩) = true := by simp [counts, nonempty, dot]
    rw [cut, componentsOf, if_pos counted, before]
    simp [Component.ofPiece, dot, dots]
  rw [components, components, absolute, last, List.reverse_cons, List.append_assoc]

/-! ### What the components tell -/

theorem fileName_eq (p : Path) : p.fileName =
    match p.components.getLast? with
    | some (.name n) => some n
    | _ => none := by
  rw [fileName, components]
  cases componentsOf p.pieces with
  | nil => cases p.isAbsolute <;> rfl
  | cons c before =>
    rw [List.reverse_cons, ← List.append_assoc, List.getLast?_concat]
    cases c <;> rfl

theorem extension_congr (same : p.components = q.components) : p.extension = q.extension := by
  rw [extension, extension, fileName_eq, fileName_eq, same]

end Retouch.Path
