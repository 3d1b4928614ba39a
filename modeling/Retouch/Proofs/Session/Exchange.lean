import Retouch.Proofs.Session.Sweep
import Retouch.Proofs.Session.Turn

/-!
Exchanges of a script's run. A trace can be cut at any of its exchanges: what comes after is the
trace of a script run on the session that the exchange left, so that a conflict stands until a
rollback. A trace is orderly if its requests come one at a time or as batches that are committed;
a sweep is orderly if its parts are.
-/

namespace Retouch

open Session (Turns)

namespace Script

variable {α β : Type} {s : Session}

theorem step_of_mem_trace {script : Script α} {e : Exchange} (member : e ∈ script.trace s) :
    e.step = e.before.perform e.source e.request := by
  induction script generalizing s with
  | done result => simp [trace] at member
  | look next ih => exact ih _ member
  | say notice next ih => exact ih member
  | ask source request next ih =>
    rcases List.mem_cons.mp member with rfl | later
    · rfl
    · exact ih _ later

theorem trace_suffix {script : Script α} {before after : List Exchange} {e : Exchange}
    (split : script.trace s = before ++ e :: after) :
    ∃ rest : Script α, after = rest.trace e.step.session ∧
      (script.run s).session = (rest.run e.step.session).session := by
  induction script generalizing s before with
  | done result => simp [trace] at split
  | look next ih => exact ih _ split
  | say notice next ih => exact ih split
  | ask source request next ih =>
    cases before with
    | nil =>
      obtain ⟨rfl, rfl⟩ := List.cons.inj split
      exact ⟨next (s.perform source request).accepted, rfl, rfl⟩
    | cons first before => exact ih _ (List.cons.inj split).2

theorem trace_andThen (script : Script α) (next : α → Script β) (s : Session) :
    (script.andThen next).trace s =
      script.trace s ++ (next (script.run s).result).trace (script.run s).session := by
  induction script generalizing s with
  | done result => rfl
  | look more ih => exact ih _ s
  | say notice more ih => exact ih s
  | ask source request more ih => exact congrArg (List.cons _) (ih _ _)

theorem run_exclusive (script : Script α) (exclusive : s.Exclusive) :
    (script.run s).session.Exclusive := by
  induction script generalizing s with
  | done result => exact exclusive
  | look next ih => exact ih _ exclusive
  | say notice next ih => exact ih exclusive
  | ask source request next ih => exact ih _ (Session.perform_exclusive source request exclusive)

theorem exclusive_of_mem_trace {script : Script α} {e : Exchange} (exclusive : s.Exclusive)
    (member : e ∈ script.trace s) : e.step.session.Exclusive := by
  induction script generalizing s with
  | done result => simp [trace] at member
  | look next ih => exact ih _ exclusive member
  | say notice next ih => exact ih exclusive member
  | ask source request next ih =>
    have after := Session.perform_exclusive source request exclusive
    rcases List.mem_cons.mp member with rfl | later
    · exact after
    · exact ih _ after later

/-! ### Conflicts -/

theorem run_of_conflict {script : Script α}
    (keeps : ∀ e ∈ script.trace s, e.request ≠ .rollback) (raised : s.conflict = true) :
    (script.run s).session.conflict = true := by
  induction script generalizing s with
  | done result => exact raised
  | look next ih => exact ih _ keeps raised
  | say notice next ih => exact ih keeps raised
  | ask source request next ih =>
    obtain ⟨first, later⟩ := List.forall_mem_cons.mp keeps
    exact ih _ later (Session.perform_of_conflict source first raised)

theorem run_of_raised {script : Script α} {before after : List Exchange} {e : Exchange}
    (split : script.trace s = before ++ e :: after)
    (keeps : ∀ later ∈ after, later.request ≠ .rollback) (raised : e.step.session.conflict = true) :
    (script.run s).session.conflict = true := by
  obtain ⟨rest, follows, ends⟩ := trace_suffix split
  rw [follows] at keeps
  rw [ends]
  exact run_of_conflict keeps raised

/-- Without rollbacks, a script that ends without conflict never met one. -/
theorem calm_of_mem_trace {script : Script α} {e : Exchange}
    (keeps : ∀ e ∈ script.trace s, e.request ≠ .rollback)
    (calm : (script.run s).session.conflict = false) (member : e ∈ script.trace s) :
    e.step.session.conflict = false := by
  obtain ⟨before, after, split⟩ := List.append_of_mem member
  by_contra raised
  have later : ∀ later ∈ after, later.request ≠ .rollback := by
    intro x found
    apply keeps x
    rw [split]
    exact List.mem_append_right _ (List.mem_cons_of_mem e found)
  rw [run_of_raised split later (eq_true_of_ne_false raised)] at calm
  cases calm

theorem not_isConflict_of_mem_trace {script : Script α} {e : Exchange} (member : e ∈ script.trace s)
    (calm : e.step.session.conflict = false) : ∀ n ∈ e.step.notices, n.isConflict = false := by
  intro n said
  by_contra conflict
  rw [step_of_mem_trace member] at said calm
  rw [Session.perform_of_isConflict e.source said (eq_true_of_ne_false conflict)] at calm
  cases calm

/-! ### Batches -/

/-- A batch is opened, edits are asked of it, and it is committed with all of them. -/
structure Committed (opening : Exchange) (queued : List Exchange) (closing : Exchange) : Prop where
  opens : opening.request = .beginBatch
  opened : opening.step.accepted = true
  lands : ∀ e ∈ queued, ∃ pos content, e.request = .replace pos content ∧
    e.step.accepted = true ∧ closing.step.session.tokens[pos]? = some content
  closes : closing.request = .endBatch
  committed : closing.step.accepted = true

/-- Exchanges that come one at a time or as batches that are committed. -/
inductive Orderly : List Exchange → Prop where
  | nil : Orderly []
  | alone {e : Exchange} {rest : List Exchange}
      (edits : e.request ≠ .beginBatch ∧ e.request ≠ .endBatch ∧ e.request ≠ .rollback)
      (next : Orderly rest) : Orderly (e :: rest)
  | batch {opening closing : Exchange} {queued rest : List Exchange}
      (committed : Committed opening queued closing) (next : Orderly rest) :
      Orderly (opening :: (queued ++ closing :: rest))

namespace Orderly

variable {front back : List Exchange}

theorem append (first : Orderly front) (second : Orderly back) : Orderly (front ++ back) := by
  induction first with
  | nil => exact second
  | alone edits _ ih => exact .alone edits ih
  | batch committed _ ih =>
    rw [List.cons_append, List.append_assoc]
    exact .batch committed ih

theorem single (source : String) {request : Request}
    (edits : request ≠ .beginBatch ∧ request ≠ .endBatch ∧ request ≠ .rollback) (s : Session) :
    Orderly ((requestAll source [request]).trace s) :=
  .alone edits .nil

theorem keeps {exchanges : List Exchange} (orderly : Orderly exchanges) :
    ∀ e ∈ exchanges, e.request ≠ .rollback := by
  induction orderly with
  | nil => simp
  | alone edits _ ih => exact List.forall_mem_cons.mpr ⟨edits.2.2, ih⟩
  | batch committed _ ih =>
    refine List.forall_mem_cons.mpr ⟨by simp [committed.opens], ?_⟩
    refine List.forall_mem_append.mpr ⟨?_, List.forall_mem_cons.mpr ⟨by simp [committed.closes], ih⟩⟩
    intro e member
    obtain ⟨pos, content, asks, -⟩ := committed.lands e member
    simp [asks]

theorem committed {exchanges : List Exchange} {opening : Exchange} (orderly : Orderly exchanges)
    (split : exchanges = front ++ opening :: back) (opens : opening.request = .beginBatch) :
    ∃ queued closing rest, back = queued ++ closing :: rest ∧ Committed opening queued closing := by
  induction orderly generalizing front with
  | nil => simp at split
  | alone edits _ ih =>
    cases front with
    | nil =>
      obtain ⟨rfl, -⟩ := List.cons.inj split
      exact (edits.1 opens).elim
    | cons first front => exact ih (List.cons.inj split).2
  | @batch other closing queued rest committed _ ih =>
    cases front with
    | nil =>
      obtain ⟨rfl, rfl⟩ := List.cons.inj split
      exact ⟨queued, closing, rest, rfl, committed⟩
    | cons first front =>
      -- A batch is not opened between the two ends of another, nor at the second of them.
      have outside : opening ∉ queued ∧ opening ≠ closing := by
        constructor
        · intro member
          obtain ⟨_, _, asks, -⟩ := committed.lands opening member
          rw [opens] at asks
          cases asks
        · rintro rfl
          have closes := committed.closes
          rw [opens] at closes
          cases closes
      rcases List.append_eq_append_iff.mp (List.cons.inj split).2 with
        ⟨between, -, later⟩ | ⟨between, inside, later⟩
      · cases between with
        | nil => exact (outside.2 (List.cons.inj later).1.symm).elim
        | cons _ between => exact ih (List.cons.inj later).2
      · cases between with
        | nil => exact (outside.2 (List.cons.inj later).1).elim
        | cons held between =>
          obtain rfl := (List.cons.inj later).1
          exact (outside.1 (by simp [inside])).elim

end Orderly

theorem trace_requestAll_append (source : String) (front back : List Request) (s : Session) :
    (requestAll source (front ++ back)).trace s = (requestAll source front).trace s ++
      (requestAll source back).trace ((requestAll source front).run s).session := by
  induction front generalizing s with
  | nil => rfl
  | cons request front ih => exact congrArg (List.cons _) (ih _)

/-! ### What is asked for -/

theorem requests_requestAll (source : String) (requests : List Request) (s : Session) :
    ((requestAll source requests).trace s).map Exchange.request = requests := by
  induction requests generalizing s with
  | nil => rfl
  | cons request rest ih => exact congrArg (List.cons request) (ih _)

/-- To empty positions, each of them is asked for in turn between the two ends of a batch; where no
batch can be opened, nothing more is asked. -/
theorem requests_clearAll (source : String) (positions : List Nat) (s : Session) :
    ((clearAll source positions).trace s).map Exchange.request =
      .beginBatch :: if s.conflict || s.batchOpen then []
        else positions.map (Request.replace · []) ++ [.endBatch] := by
  have opens : (s.beginBatch source).accepted = !(s.conflict || s.batchOpen) := by
    unfold Session.beginBatch
    cases s.conflict <;> cases s.batchOpen <;> rfl
  simp only [clearAll, request, andThen, trace, Session.perform, opens, List.map_cons]
  cases s.conflict || s.batchOpen with
  | false => simp [requests_requestAll]
  | true => rfl

end Script

namespace Session

open Script (Orderly)

variable {s t : Session} {edits : Nat → Option Text}

theorem trace_requestAll_replace (source : String) (positions : List Nat) (batch : Batch)
    (calm : s.conflict = false) :
    ∀ e ∈ (Script.requestAll source (positions.map (Request.replace · []))).trace
        { s with batch := some batch },
      ∃ pos ∈ positions, e.request = .replace pos [] ∧ e.step.accepted = true := by
  induction positions generalizing batch with
  | nil => exact fun e member => (List.not_mem_nil member).elim
  | cons pos positions ih =>
    have step : ({ s with batch := some batch } : Session).replace source pos [] =
        ⟨true, { s with batch := some (batch.insert pos []) }, [.buffered source pos []]⟩ := by
      simp [Session.replace, calm]
    intro e member
    rcases List.mem_cons.mp member with rfl | later
    · exact ⟨pos, List.mem_cons_self, rfl, by simp [perform, step]⟩
    · rw [perform, step] at later
      obtain ⟨q, listed, asks⟩ := ih _ e later
      exact ⟨q, List.mem_cons_of_mem pos listed, asks⟩

section ClearAll

variable (edited : Edited edits s t) (source : String) (idle : s.batch = none)
  (calm : s.conflict = false) {positions : List Nat} (distinct : positions.Nodup)
  (lands : ∀ pos ∈ positions, s.Lands pos []) (untouched : ∀ pos ∈ positions, edits pos = none)

include edited idle calm distinct lands untouched

theorem Edited.clearAll_committed : ∃ opening queued closing,
    (Script.clearAll source positions).trace t = opening :: (queued ++ [closing]) ∧
      Script.Committed opening queued closing ∧
      ∀ e ∈ queued, ∃ pos ∈ positions, e.request = .replace pos [] := by
  have calm' : t.conflict = false := edited.conflict_eq.trans calm
  have opened := beginBatch_of_idle source (edited.batch_eq.trans idle) calm'
  have reached : ((Script.requestAll source (positions.map (Request.replace · []))).run
      { t with batch := some ∅ }).session = { t with batch := some (cleared positions) } := by
    have run := run_requestAll_replace source positions [] ∅ calm'
    rwa [List.append_nil] at run
  obtain ⟨accepted, closed⟩ :=
    edited.endBatch_cleared source idle calm distinct lands untouched
  have trace : (Script.clearAll source positions).trace t =
      ⟨source, .beginBatch, t, t.beginBatch source⟩ ::
        (Script.requestAll source (positions.map (Request.replace · []) ++ [.endBatch])).trace
          { t with batch := some ∅ } := by
    simp only [Script.clearAll, Script.request, Script.andThen, Script.trace, perform, opened,
      if_true]
  rw [trace, Script.trace_requestAll_append, reached]
  refine ⟨_, _, _, rfl, ⟨rfl, by rw [opened], ?_, rfl, accepted⟩, ?_⟩
  · intro e member
    obtain ⟨pos, listed, asks, buffered⟩ :=
      trace_requestAll_replace source positions ∅ calm' e member
    refine ⟨pos, [], asks, buffered, (closed.landed.tokens pos).trans ?_⟩
    have held : Slots.find pos (positions.map fun pos => (pos, ([] : Text))) = some [] :=
      (Slots.find_eq_some_iff (by simpa [Function.comp_def] using distinct)).mpr
        (List.mem_map.mpr ⟨pos, listed, rfl⟩)
    rw [untouched pos listed, held]
    rfl
  · intro e member
    obtain ⟨pos, listed, asks, -⟩ :=
      trace_requestAll_replace source positions ∅ calm' e member
    exact ⟨pos, listed, asks⟩

theorem Edited.clearAll_orderly : Orderly ((Script.clearAll source positions).trace t) := by
  obtain ⟨_, _, _, trace, committed, -⟩ :=
    edited.clearAll_committed source idle calm distinct lands untouched
  rw [trace]
  exact .batch committed .nil

end ClearAll

/-- What holds of the exchanges of each part of a sweep, and of two lists of exchanges put together,
holds of the whole sweep. -/
theorem Edited.forEach_trace {γ : Type} {f : γ → Script Unit} {items : List γ} {whole : Nat → Prop}
    {holds : List Script.Exchange → Prop} (edited : Edited edits s t)
    (want : γ → Nat → Option Text) (nil : holds [])
    (append : ∀ front back, holds front → holds back → holds (front ++ back))
    (step : ∀ x ∈ items, ∀ edits t, Edited edits s t →
      (∀ q, whole q → (want x q).isSome → edits q = none) →
      Edited (fun q => (edits q).or (want x q)) s ((f x).run t).session ∧ holds ((f x).trace t))
    (apart : items.Pairwise fun x y => ∀ q, whole q → (want x q).isSome → want y q = none)
    (untouched : ∀ x ∈ items, ∀ q, whole q → (want x q).isSome → edits q = none) :
    holds ((Script.forEach f items).trace t) := by
  induction items generalizing t edits with
  | nil => exact nil
  | cons x rest ih =>
    obtain ⟨first, apart⟩ := List.pairwise_cons.mp apart
    obtain ⟨free, others⟩ := List.forall_mem_cons.mp untouched
    obtain ⟨edited', held⟩ := step x List.mem_cons_self edits t edited free
    rw [Script.forEach, Script.trace_andThen]
    exact append _ _ held (ih edited' (fun y member => step y (List.mem_cons_of_mem x member)) apart
      (untouched_or first others))

end Session

end Retouch
