import Retouch.Proofs.Session.Reach

/-!
Marks and tokens stay in step. Whatever was asked of a session, its tokens are its base with the
marked positions changed, and a mark holds what the base has there. So the marks are enough to get
the base back, and without marks the text is the base's text.
-/

namespace Retouch.Session

variable {s : Session} {base : List Text} {edits : Nat → Option Text} {pos : Nat}

/-! ### Landed edits over a fresh session -/

theorem Landed.marks_new (landed : Landed edits (.new base) s) (pos : Nat) :
    s.history.marks.get? pos = if (edits pos).isSome then base[pos]? else none :=
  landed.marks pos

theorem Landed.lt_of_marked (landed : Landed edits (.new base) s)
    (marked : (s.history.marks.get? pos).isSome) : pos < base.length := by
  rw [landed.marks_new] at marked
  split at marked
  · simpa using marked
  · simp at marked

theorem Landed.edited_iff_marked (landed : Landed edits (.new base) s) :
    (edits pos).isSome ↔ (s.history.marks.get? pos).isSome := by
  rw [landed.marks_new]
  cases edited : edits pos with
  | none => simp
  | some content =>
    obtain ⟨inside, -⟩ := landed.free pos (by simp [edited])
    have inside : pos < base.length := inside
    simp [inside]

theorem Landed.tokens_of_unmarked (landed : Landed edits (.new base) s)
    (unmarked : s.history.marks.get? pos = none) : s.tokens[pos]? = base[pos]? := by
  have untouched : edits pos = none := by
    rw [← Option.not_isSome_iff_eq_none, landed.edited_iff_marked, unmarked]
    simp
  exact (landed.of_not_edited untouched).1

theorem Landed.fixCount_eq (landed : Landed edits (.new base) s) :
    s.fixCount = ((List.range s.tokens.length).filter s.history.isFixed).length := by
  apply Slots.size_eq_count
  intro pos marked
  rw [landed.length_eq]
  exact landed.lt_of_marked marked

theorem Landed.tokens_of_fixCount (landed : Landed edits (.new base) s) (none : s.fixCount = 0) :
    s.tokens = base := by
  have unmarked := Slots.size_eq_zero_iff.mp none
  exact List.ext_getElem? fun pos => landed.tokens_of_unmarked (unmarked pos)

theorem Landed.tokens_revertAll {positions : List Nat} (landed : Landed edits (.new base) s)
    (source : String) (covered : ∀ pos, s.history.isFixed pos = true → pos ∈ positions) :
    (Session.revertAll source positions s).1.tokens = base := by
  have reverted := landed.revertAll source (fun pos (_ : pos ∈ positions) => rfl)
  apply (reverted.of_none _).1
  intro pos
  by_cases listed : pos ∈ positions
  · simp [listed]
  · have unmarked : ¬(s.history.marks.get? pos).isSome := fun marked => listed (covered pos marked)
    rw [← landed.edited_iff_marked] at unmarked
    simpa [listed] using unmarked

/-! ### Marked positions -/

/-- A request after which a batch is open changes a token only by bringing back what the base has
there. -/
theorem perform_of_open (source : String) (request : Request) (landed : Landed edits (.new base) s)
    (opened : (s.perform source request).session.batchOpen = true) (pos : Nat) :
    (s.perform source request).session.tokens[pos]? = s.tokens[pos]? ∨
      (s.perform source request).session.tokens[pos]? = base[pos]? := by
  by_cases reverts : ∃ q, request = .revert q
  · obtain ⟨q, rfl⟩ := reverts
    have reverted : Landed _ (.new base) (s.revert source q).session := landed.revert source rfl
    by_cases here : pos = q
    · right
      have back := reverted.tokens pos
      rw [if_pos here] at back
      exact back
    · left
      have kept := reverted.tokens pos
      rw [if_neg here] at kept
      exact kept.trans (landed.tokens pos).symm
  · obtain ⟨later, more, idle⟩ :=
      (s.perform_steady source (fun q same => reverts ⟨q, same⟩)).landed
    exact Or.inl (more.of_not_edited (idle opened pos)).1

/-- A marked position keeps mark and content under every request but its own revert. -/
theorem perform_of_marked (source : String) {request : Request}
    (marked : s.history.isFixed pos = true) (other : request ≠ .revert pos) :
    (s.perform source request).session.tokens[pos]? = s.tokens[pos]? ∧
      (s.perform source request).session.history.isFixed pos = true := by
  by_cases reverts : ∃ q, request = .revert q
  · obtain ⟨q, rfl⟩ := reverts
    have different : pos ≠ q := fun same => other (same ▸ rfl)
    simp only [perform]
    cases present : s.history.marks.get? q with
    | none =>
      rw [revert_of_unmarked source present]
      exact ⟨rfl, marked⟩
    | some before =>
      rw [revert_of_marked source present]
      refine ⟨by simp [Ne.symm different], ?_⟩
      simp only [History.isFixed, Slots.contains, Slots.get?_erase, if_neg different]
      exact marked
  · obtain ⟨edits, landed, _⟩ :=
      (s.perform_steady source (fun q same => reverts ⟨q, same⟩)).landed
    have untouched : edits pos = none := by
      by_contra edited
      have free := landed.free pos (Option.isSome_iff_ne_none.mpr edited)
      rw [free.2] at marked
      cases marked
    obtain ⟨tokens, marks⟩ := landed.of_not_edited untouched
    refine ⟨tokens, ?_⟩
    simp only [History.isFixed, Slots.contains, marks]
    exact marked

/-- In every reachable state a mark holds what the base has there, and an unmarked position still
holds it. So reverting the marked positions, in any order, gives the base back, and the fix count
counts them. -/
theorem marks_represent_base (reached : Reaches base s) :
    s.tokens.length = base.length ∧
    (∀ pos before, s.history.marks.get? pos = some before →
      pos < s.tokens.length ∧ base[pos]? = some before) ∧
    (∀ pos, s.history.marks.get? pos = none → s.tokens[pos]? = base[pos]?) ∧
    s.fixCount = ((List.range s.tokens.length).filter s.history.isFixed).length ∧
    (∀ source positions, (∀ pos, s.history.isFixed pos = true → pos ∈ positions) →
      (revertAll source positions s).1.tokens = base) ∧
    (s.fixCount = 0 → s.contents = base.flatten) ∧
    (∀ source request pos, s.history.isFixed pos = true → request ≠ .revert pos →
      (s.perform source request).session.tokens[pos]? = s.tokens[pos]? ∧
      (s.perform source request).session.history.isFixed pos = true) ∧
    ∀ (σ : Type) (host : Host σ) (state : σ),
      Reaches (Reaches.lastLoaded s.tokens (host.fix s state).passes)
        (host.fix s state).session := by
  obtain ⟨edits, landed⟩ := reached.landed
  refine ⟨landed.length_eq, ?_, fun pos => landed.tokens_of_unmarked, landed.fixCount_eq,
    fun source positions => landed.tokens_revertAll source, ?_,
    fun source request pos => perform_of_marked source, fun σ host state => reached.fix host state⟩
  · intro pos before marked
    have saved := landed.marks_new pos
    have present : (s.history.marks.get? pos).isSome := by simp [marked]
    have inside := landed.lt_of_marked present
    rw [marked] at saved
    split at saved
    · refine ⟨?_, saved.symm⟩
      rw [landed.length_eq]
      exact inside
    · cases saved
  · intro none
    rw [contents, landed.tokens_of_fixCount none]

def patched : Session :=
  let first := ((Session.new [['a'], ['b']]).perform "host" (.replace 1 ['y'])).session
  let opened := (first.perform "host" .beginBatch).session
  let pending := (opened.perform "host" (.replace 0 ['x'])).session
  let refused := ((pending.perform "host" (.replace 1 ['z'])).session.perform "host" .endBatch).session
  (refused.perform "host" (.append 0 ['!'])).session

theorem marks_represent_base_patched :
    Reaches [['a'], ['b']] patched ∧ patched.tokens = [['a', '!'], ['y']] ∧ patched.fixCount = 2 ∧
      (revertAll "undo" [0, 1] patched).1.tokens = [['a'], ['b']] := by
  have reached : Reaches [['a'], ['b']] patched :=
    ((((((Reaches.new _).perform _ _).perform _ _).perform _ _).perform _ _).perform _ _).perform _ _
  obtain ⟨_, inRange, _, _, restores, _⟩ := marks_represent_base reached
  refine ⟨reached, rfl, rfl, restores "undo" [0, 1] ?_⟩
  intro pos marked
  obtain ⟨before, saved⟩ := Option.isSome_iff_exists.mp marked
  have inside : pos < 2 := (inRange pos before saved).1
  simp only [List.mem_cons, List.not_mem_nil, or_false]
  omega

end Retouch.Session
