import Retouch.Proofs.Session.Overlay

/-!
Positions past the end. Only a direct edit looks at the range of the tokens; an open batch takes an
edit of any position, and from then on the editor shows what waits there. `content_range` says for
every reachable state what is shown and which edits are accepted past the end, that such an edit
costs the batch all its edits in the end, and that reads and edits keep to the range iff no batch is
open.
-/

namespace Retouch.Session

variable {s : Session} {pos : Nat} {base : List Text}

def waits (s : Session) (pos : Nat) : Bool := s.batch.any (·.contains pos)

/-- Reads and edits keep to the loaded tokens. -/
structure Ranged (s : Session) : Prop where
  reads : ∀ pos, (s.content pos).isSome ↔ pos < s.tokens.length
  edits : ∀ pos, s.tokens.length ≤ pos → ∀ source request, request.target? = some pos →
    (s.perform source request).accepted = false

/-! ### Reading -/

theorem content_isSome_iff : (s.content pos).isSome ↔ pos < s.tokens.length ∨ s.waits pos := by
  unfold content waits
  rw [Option.isSome_or, Bool.or_eq_true, or_comm, isSome_getElem?]
  cases s.batch <;> rfl

theorem batchOpen_of_waits (waiting : s.waits pos) : s.batchOpen := by
  unfold waits at waiting
  cases opened : s.batch with
  | none => simp [opened] at waiting
  | some batch => simp [batchOpen, opened]

/-! ### Edits past the end -/

section Outside

variable (exclusive : s.Exclusive) (outside : s.tokens.length ≤ pos)

include exclusive outside

theorem replace_outside (source : String) (content : Text) :
    (s.replace source pos content).accepted = s.batchOpen := by
  cases opened : s.batch with
  | some batch =>
    simp [replace_of_open opened (exclusive.calm opened), batchOpen, opened]
  | none =>
    have past : s.tokens[pos]? = none := List.getElem?_eq_none outside
    cases raised : s.conflict <;> simp [replace, apply, batchOpen, opened, past, raised]

theorem modify_outside (source : String) (f : Text → Text) :
    (s.modify source pos f).accepted = s.waits pos := by
  unfold modify
  cases shown : s.content pos with
  | none =>
    have none : s.waits pos = false := by
      by_contra waiting
      have shows := content_isSome_iff.mpr (Or.inr (eq_true_of_ne_false waiting))
      simp [shown] at shows
    rw [none]
  | some current =>
    have waiting : s.waits pos = true := by
      have shows := content_isSome_iff.mp (Option.isSome_of_eq_some shown)
      exact shows.resolve_left (Nat.not_lt.mpr outside)
    rw [waiting]
    exact (replace_outside exclusive outside source (f current)).trans (batchOpen_of_waits waiting)

/-- Past the end a replacement is accepted iff a batch is open, and an edit of what is shown iff
something waits. -/
theorem perform_outside {request : Request} (target : request.target? = some pos)
    (source : String) : (s.perform source request).accepted = true ↔
      s.batchOpen ∧ ((∃ content, request = .replace pos content) ∨ s.waits pos) := by
  by_cases replaces : ∃ content, request = .replace pos content
  · obtain ⟨content, rfl⟩ := replaces
    simp [perform, replace_outside exclusive outside]
  · rw [perform_eq_modify target fun content same => replaces ⟨content, same⟩,
      modify_outside exclusive outside, or_iff_right replaces]
    exact ⟨fun waiting => ⟨batchOpen_of_waits waiting, waiting⟩, And.right⟩

theorem endBatch_outside (waiting : s.waits pos) (source : String) :
    (s.endBatch source).accepted = false ∧ (s.endBatch source).session.tokens = s.tokens := by
  obtain ⟨batch, opened⟩ := Option.isSome_iff_exists.mp (batchOpen_of_waits waiting)
  have calm := exclusive.calm opened
  have refused : (s.endBatch source).accepted = false := by
    by_contra accepted
    have lands := (endBatch_accepted_iff source opened calm).mp (eq_true_of_ne_false accepted)
    simp only [waits, opened, Option.any_some] at waiting
    obtain ⟨content, held⟩ := Option.isSome_iff_exists.mp waiting
    have inside := (lands _ (Slots.mem_entries_iff.mpr held)).1.1
    exact Nat.not_lt.mpr outside inside
  have landed := endBatch_landed source opened calm
  rw [refused] at landed
  exact ⟨refused, List.ext_getElem? landed.tokens⟩

end Outside

theorem ranged_iff (exclusive : s.Exclusive) : s.Ranged ↔ s.batchOpen = false := by
  constructor
  · rintro ⟨-, edits⟩
    have refused := edits s.tokens.length (Nat.le_refl _) "" (.replace s.tokens.length []) rfl
    exact (replace_outside exclusive (Nat.le_refl _) "" []).symm.trans refused
  · intro closed
    refine ⟨fun pos => ?_, fun pos outside source request target => ?_⟩
    · rw [content_isSome_iff, or_iff_left]
      intro waiting
      simp [batchOpen_of_waits waiting] at closed
    · rw [← Bool.not_eq_true, perform_outside exclusive outside target, closed]
      simp

/-- A position shows a content iff it is in range or an edit of it waits. Past the end a replacement
is accepted iff a batch is open, and that batch is refused in the end. -/
theorem content_range (reached : Reaches base s) :
    (∀ pos, (s.content pos).isSome ↔ pos < s.tokens.length ∨ s.waits pos) ∧
    (∀ pos, s.tokens.length ≤ pos → ∀ source request, request.target? = some pos →
      ((s.perform source request).accepted = true ↔
        s.batchOpen ∧ ((∃ content, request = .replace pos content) ∨ s.waits pos))) ∧
    (∀ pos, s.tokens.length ≤ pos → s.waits pos → ∀ source,
      (s.endBatch source).accepted = false ∧ (s.endBatch source).session.tokens = s.tokens) ∧
    (s.Ranged ↔ s.batchOpen = false) := by
  have exclusive := reached.exclusive
  refine ⟨fun pos => content_isSome_iff, ?_, ?_, ranged_iff exclusive⟩
  · intro pos outside source request target
    exact perform_outside exclusive outside target source
  · intro pos outside waiting source
    exact endBatch_outside exclusive outside waiting source

def overreaching : Session :=
  let opened := ((new [['a']]).perform "host" .beginBatch).session
  let first := (opened.perform "host" (.append 0 ['!'])).session
  (first.perform "host" (.replace 3 ['d'])).session

/-- The fourth position can be read and edited, the third cannot, and the edit of the first token is
lost with the batch. -/
theorem content_range_overreaching :
    Reaches [['a']] overreaching ∧ (overreaching.content 3).isSome ∧
      ¬(overreaching.content 2).isSome ∧
      (overreaching.perform "host" (.slice 3 0 none)).accepted = true ∧
      ¬(overreaching.perform "host" (.slice 2 0 none)).accepted = true ∧
      (overreaching.endBatch "host").session.tokens = [['a']] ∧ ¬overreaching.Ranged := by
  have reached : Reaches [['a']] overreaching :=
    (((Reaches.new _).perform _ _).perform _ _).perform _ _
  obtain ⟨shows, accepts, lost, ranged⟩ := content_range reached
  refine ⟨reached, (shows 3).mpr (Or.inr rfl), ?_, ?_, ?_, ?_, ?_⟩
  · rw [shows]
    decide
  · exact (accepts 3 (by decide) "host" (.slice 3 0 none) rfl).mpr ⟨rfl, Or.inr rfl⟩
  · rw [accepts 2 (by decide) "host" (.slice 2 0 none) rfl]
    rintro ⟨-, ⟨content, other⟩ | waiting⟩
    · cases other
    · cases waiting
  · exact (lost 3 (by decide) rfl "host").2
  · rw [ranged]
    decide

/-- A position past the end can be replaced, read and extended while a batch is open. -/
theorem replace_past_end :
    let opened := ((new [['a']]).perform "host" .beginBatch).session
    let replaced := opened.perform "host" (.replace 1 ['x'])
    Reaches [['a']] opened ∧ replaced.session.tokens.length = 1 ∧ replaced.accepted = true ∧
      replaced.session.content 1 = some ['x'] ∧
      (replaced.session.perform "host" (.append 1 ['y'])).accepted = true :=
  ⟨(Reaches.new _).perform _ _, rfl, rfl, rfl, rfl⟩

end Retouch.Session
