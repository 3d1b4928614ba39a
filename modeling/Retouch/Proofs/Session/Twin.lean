import Retouch.Proofs.Session.Exchange

/-!
Sessions that differ in their past alone. Records and the number of the pass bear on an answer only
through a conflict. So as long as no conflict is raised in one session, another one with the same
tokens, marks and batch but with records that cannot raise any gives the same answers, whatever it
is asked; `Twin.run` says so of whole scripts.
-/

namespace Retouch.Session

variable {s t : Session} {α : Type}

def withPast (s : Session) (pass : Nat) (records : Slots Record) : Session :=
  { s with pass := pass, history := { s.history with records := records } }

/-- `t` is `s` with another past, and no record of `t` is of the pass before. -/
structure Twin (s t : Session) : Prop where
  same : ∃ pass records, t = s.withPast pass records
  fresh : ∀ pos r, t.history.record? pos = some r → r.pass + 1 ≠ t.pass

structure Agree (a b : Step) : Prop where
  accepted : a.accepted = b.accepted
  twin : Twin a.session b.session

namespace Twin

variable (twin : Twin s t)

include twin

theorem conflict_eq : t.conflict = s.conflict := by
  obtain ⟨_, _, rfl⟩ := twin.same
  rfl

theorem batch_eq : t.batch = s.batch := by
  obtain ⟨_, _, rfl⟩ := twin.same
  rfl

theorem tokens_eq : t.tokens = s.tokens := by
  obtain ⟨_, _, rfl⟩ := twin.same
  rfl

theorem marks_eq : t.history.marks = s.history.marks := by
  obtain ⟨_, _, rfl⟩ := twin.same
  rfl

theorem view_eq : t.view = s.view := by
  obtain ⟨_, _, rfl⟩ := twin.same
  rfl

theorem free_iff {pos : Nat} : t.Free pos ↔ s.Free pos := by
  rw [Session.free_iff, Session.free_iff, twin.tokens_eq, twin.marks_eq]

theorem flags (batch : Option Batch) (conflict : Bool) :
    Twin { s with batch := batch, conflict := conflict }
      { t with batch := batch, conflict := conflict } := by
  obtain ⟨⟨pass, records, rfl⟩, fresh⟩ := twin
  exact ⟨⟨pass, records, rfl⟩, fresh⟩

theorem buffer (batch : Option Batch) :
    Twin { s with batch := batch } { t with batch := batch } := by
  obtain ⟨⟨pass, records, rfl⟩, fresh⟩ := twin
  exact ⟨⟨pass, records, rfl⟩, fresh⟩

/-! ### Edits -/

theorem land (pos : Nat) (content : Text) : Twin (s.land pos content) (t.land pos content) := by
  obtain ⟨⟨pass, records, rfl⟩, fresh⟩ := twin
  refine ⟨⟨pass, _, rfl⟩, fun q r recorded => ?_⟩
  rw [land_record?] at recorded
  split at recorded
  · obtain rfl := Option.some.inj recorded
    unfold nextRecord
    split <;> exact Nat.succ_ne_self pass
  · exact fresh q r recorded

/-- An edit that raises no conflict lands in both sessions or in none. -/
theorem apply (source : String) (pos : Nat) (content : Text)
    (calm : (s.apply source pos content).session.conflict = false) :
    Agree (s.apply source pos content) (t.apply source pos content) := by
  by_cases lands : s.Lands pos content
  · have lands' : t.Lands pos content := by
      refine ⟨twin.free_iff.mpr lands.1, ?_⟩
      rintro ⟨r, recorded, _, before⟩
      exact twin.fresh pos r recorded before
    obtain ⟨accepted, session⟩ := apply_of_lands source lands
    obtain ⟨accepted', session'⟩ := apply_of_lands source lands'
    refine ⟨accepted.trans accepted'.symm, ?_⟩
    rw [session, session']
    exact twin.land pos content
  · obtain ⟨refused, session⟩ := apply_of_not_lands source lands
    rw [session] at calm
    have taken : ¬s.Free pos := by
      simp only [raise, Bool.or_eq_false_iff, decide_eq_false_iff_not] at calm
      exact calm.2
    have taken' : ¬t.Free pos := fun free => taken (twin.free_iff.mp free)
    have held' : ¬t.Lands pos content := fun lands => taken' lands.1
    obtain ⟨refused', session'⟩ := apply_of_not_lands source held'
    refine ⟨refused.trans refused'.symm, ?_⟩
    rw [session, session', decide_eq_false taken, decide_eq_false taken']
    simpa [raise] using twin

theorem replace (source : String) (pos : Nat) (content : Text)
    (calm : (s.replace source pos content).session.conflict = false) :
    Agree (s.replace source pos content) (t.replace source pos content) := by
  unfold Session.replace at calm ⊢
  by_cases raised : s.conflict = true
  · rw [if_pos raised, if_pos (twin.conflict_eq.trans raised)]
    exact ⟨rfl, twin⟩
  · rw [if_neg raised] at calm ⊢
    rw [if_neg (by rwa [twin.conflict_eq]), twin.batch_eq]
    cases opened : s.batch with
    | some batch => exact ⟨rfl, twin.buffer _⟩
    | none =>
      rw [opened] at calm
      exact twin.apply source pos content calm

theorem modify (source : String) (pos : Nat) (f : Text → Text)
    (calm : (s.modify source pos f).session.conflict = false) :
    Agree (s.modify source pos f) (t.modify source pos f) := by
  have seen : t.content pos = s.content pos := congrFun (congrArg View.content twin.view_eq) pos
  unfold Session.modify at calm ⊢
  rw [seen]
  cases read : s.content pos with
  | none => exact ⟨rfl, twin⟩
  | some current =>
    rw [read] at calm
    exact twin.replace source pos (f current) calm

theorem revert (source : String) (pos : Nat) :
    Agree (s.revert source pos) (t.revert source pos) := by
  obtain ⟨⟨pass, records, rfl⟩, fresh⟩ := twin
  unfold Session.revert History.takeMark withPast
  dsimp only
  cases s.history.marks.get? pos with
  | none => exact ⟨rfl, ⟨pass, records, rfl⟩, fresh⟩
  | some before => exact ⟨rfl, ⟨pass, records, rfl⟩, fresh⟩

/-! ### Batches -/

theorem beginBatch (source : String) : Agree (s.beginBatch source) (t.beginBatch source) := by
  have same : t.batchOpen = s.batchOpen := congrArg Option.isSome twin.batch_eq
  unfold Session.beginBatch
  by_cases raised : s.conflict = true
  · rw [if_pos raised, if_pos (twin.conflict_eq.trans raised)]
    exact ⟨rfl, twin⟩
  · have raised' : ¬t.conflict = true := by rwa [twin.conflict_eq]
    rw [if_neg raised, if_neg raised', same]
    split
    · exact ⟨rfl, twin⟩
    · exact ⟨rfl, twin.buffer _⟩

omit twin in
theorem replay (source : String) {entries : List (Nat × Text)} (twin : Twin s t)
    (quiet : s.conflict = false)
    (calm : (Session.replay source entries s).session.conflict = false) :
    (Session.replay source entries s).complete = (Session.replay source entries t).complete ∧
      (Session.replay source entries s).landed = (Session.replay source entries t).landed ∧
      Twin (Session.replay source entries s).session (Session.replay source entries t).session := by
  induction entries generalizing s t with
  | nil => exact ⟨rfl, rfl, twin⟩
  | cons e rest ih =>
    obtain ⟨pos, content⟩ := e
    by_cases lands : s.Lands pos content
    · obtain ⟨accepted, session⟩ := apply_of_lands source lands
      have still : (s.apply source pos content).session.conflict = false := by
        rw [session]
        exact quiet
      obtain ⟨same, next⟩ := twin.apply source pos content still
      have accepted' := same.symm.trans accepted
      simp only [Session.replay, accepted, accepted', if_true] at calm ⊢
      obtain ⟨complete, landed, final⟩ := ih next still calm
      exact ⟨complete, congrArg _ landed, final⟩
    · obtain ⟨refused, -⟩ := apply_of_not_lands source lands
      simp only [Session.replay, refused, Bool.false_eq_true, if_false] at calm ⊢
      obtain ⟨same, next⟩ := twin.apply source pos content calm
      have refused' := same.symm.trans refused
      simp only [refused', Bool.false_eq_true, if_false]
      exact ⟨trivial, trivial, next⟩

omit twin in
theorem revertAll (source : String) (positions : List Nat) (twin : Twin s t) :
    Twin (Session.revertAll source positions s).1 (Session.revertAll source positions t).1 := by
  induction positions generalizing s t with
  | nil => exact twin
  | cons pos rest ih => exact ih (twin.revert source pos).twin

theorem endBatch (source : String) (calm : (s.endBatch source).session.conflict = false) :
    Agree (s.endBatch source) (t.endBatch source) := by
  cases opened : s.batch with
  | none =>
    have opened' := twin.batch_eq.trans opened
    simp only [Session.endBatch, opened, opened']
    exact ⟨rfl, twin⟩
  | some batch =>
    have opened' := twin.batch_eq.trans opened
    have shut : Twin s.closed t.closed := twin.buffer none
    cases quiet : s.conflict with
    | true =>
      obtain ⟨refused, session⟩ := endBatch_of_conflict source opened quiet
      obtain ⟨refused', session'⟩ :=
        endBatch_of_conflict source opened' (twin.conflict_eq.trans quiet)
      refine ⟨refused.trans refused'.symm, ?_⟩
      rw [session, session']
      exact shut
    | false =>
      have quiet' := twin.conflict_eq.trans quiet
      cases complete : (Session.replay source batch.entries s.closed).complete with
      | true =>
        obtain ⟨accepted, session⟩ := endBatch_of_complete opened quiet complete
        rw [session] at calm
        obtain ⟨same, -, replayed⟩ := shut.replay source quiet calm
        obtain ⟨accepted', session'⟩ :=
          endBatch_of_complete opened' quiet' (same.symm.trans complete)
        refine ⟨accepted.trans accepted'.symm, ?_⟩
        rw [session, session']
        exact replayed
      | false =>
        obtain ⟨refused, session⟩ := endBatch_of_incomplete opened quiet complete
        have calm : (Session.replay source batch.entries s.closed).session.conflict = false := by
          obtain ⟨_, _, kept⟩ := revertAll_eq source
            (Session.replay source batch.entries s.closed).landed
            (Session.replay source batch.entries s.closed).session
          rw [session, kept] at calm
          exact calm
        obtain ⟨same, landed, replayed⟩ := shut.replay source quiet calm
        obtain ⟨refused', session'⟩ :=
          endBatch_of_incomplete opened' quiet' (same.symm.trans complete)
        refine ⟨refused.trans refused'.symm, ?_⟩
        rw [session, session', ← landed]
        exact replayed.revertAll source _

/-! ### Re-indentation -/

omit twin in
theorem replaceAll (source : String) (edits : List (Nat × Text)) (twin : Twin s t)
    (opened : s.batch.isSome) :
    Twin (Session.replaceAll source edits s).1 (Session.replaceAll source edits t).1 := by
  induction edits generalizing s t with
  | nil => exact twin
  | cons e rest ih =>
    obtain ⟨pos, content⟩ := e
    obtain ⟨batch, present⟩ := Option.isSome_iff_exists.mp opened
    have present' := twin.batch_eq.trans present
    have next : Twin (s.replace source pos content).session
        (t.replace source pos content).session := by
      unfold Session.replace
      by_cases raised : s.conflict = true
      · rw [if_pos raised, if_pos (twin.conflict_eq.trans raised)]
        exact twin
      · rw [if_neg raised, if_neg (by rwa [twin.conflict_eq]), present, present']
        exact twin.buffer _
    exact ih next (replace_isSome source pos content opened)

theorem reindent (source : String) (first last : Nat) (change : Int)
    (calm : (s.reindent source first last change).session.conflict = false) :
    Agree (s.reindent source first last change) (t.reindent source first last change) := by
  have edits : (t.range first last).filterMap (t.shiftAt change) =
      (s.range first last).filterMap (s.shiftAt change) := by
    obtain ⟨_, _, rfl⟩ := twin.same
    rfl
  obtain ⟨accepted, begun⟩ := twin.beginBatch source
  unfold Session.reindent at calm ⊢
  rw [edits, show t.batchOpen = s.batchOpen from congrArg Option.isSome twin.batch_eq]
  cases opened : s.batchOpen with
  | true => exact ⟨rfl, twin.replaceAll source _ opened⟩
  | false =>
    simp only [opened, Bool.false_eq_true, if_false] at calm ⊢
    rw [← accepted]
    cases starts : (s.beginBatch source).accepted with
    | false => exact ⟨rfl, begun⟩
    | true =>
      have some := beginBatch_isSome starts
      simp only [starts, if_true] at calm ⊢
      obtain ⟨same, closed⟩ := (begun.replaceAll source _ some).endBatch source calm
      exact ⟨same, closed⟩

/-! ### Requests and scripts -/

/-- A request that is no rollback and leaves no conflict gets the same answer of twins. -/
theorem perform (source : String) {request : Request} (keeps : request ≠ .rollback)
    (calm : (s.perform source request).session.conflict = false) :
    Agree (s.perform source request) (t.perform source request) := by
  have ends : t.terminator = s.terminator := congrArg View.terminator twin.view_eq
  cases request with
  | replace pos content => exact twin.replace source pos content calm
  | revert pos => exact twin.revert source pos
  | beginBatch => exact twin.beginBatch source
  | endBatch => exact twin.endBatch source calm
  | rollback => exact (keeps rfl).elim
  | append pos text => exact twin.modify source pos _ calm
  | prepend pos text => exact twin.modify source pos _ calm
  | appendNewline pos =>
    simp only [Session.perform, Session.appendNewline, ends]
    exact twin.modify source pos _ calm
  | prependNewline pos =>
    simp only [Session.perform, Session.prependNewline, ends]
    exact twin.modify source pos _ calm
  | slice pos start len => exact twin.modify source pos _ calm
  | reindent first last change => exact twin.reindent source first last change calm

end Twin

/-- A script that asks for no rollback and ends without conflict runs alike on twins. -/
theorem Twin.run {script : Script α} (twin : Twin s t)
    (keeps : ∀ e ∈ script.trace s, e.request ≠ .rollback)
    (calm : (script.run s).session.conflict = false) :
    Twin (script.run s).session (script.run t).session := by
  induction script generalizing s t with
  | done result => exact twin
  | look next ih =>
    rw [Script.run, Script.run, twin.view_eq]
    exact ih _ twin keeps calm
  | say notice next ih => exact ih twin keeps calm
  | ask source request next ih =>
    obtain ⟨first, later⟩ := List.forall_mem_cons.mp keeps
    have quiet : (s.perform source request).session.conflict = false := by
      by_contra raised
      have stays := Script.run_of_conflict later (eq_true_of_ne_false raised)
      have calm : ((next (s.perform source request).accepted).run
        (s.perform source request).session).session.conflict = false := calm
      rw [calm] at stays
      cases stays
    obtain ⟨answer, next'⟩ := twin.perform source first quiet
    simp only [Script.run, ← answer]
    exact ih _ next' later calm

end Retouch.Session
