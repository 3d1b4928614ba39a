import Retouch.Proofs.Session.Batch
import Retouch.Script

/-!
Scripts that sweep over a token list. Each part of a sweep edits one position or empties several
as a batch; what is edited already stays as it is. `Edited.forEach` puts the parts together: of
several edits of one position, the first lands.
-/

namespace Retouch

namespace Script

variable {α β : Type}

theorem run_andThen (script : Script α) (next : α → Script β) (s : Session) :
    ((script.andThen next).run s).session =
        ((next (script.run s).result).run (script.run s).session).session ∧
      ((script.andThen next).run s).result =
        ((next (script.run s).result).run (script.run s).session).result := by
  induction script generalizing s with
  | done result => exact ⟨rfl, rfl⟩
  | look more ih => exact ih _ s
  | say notice more ih => exact ih s
  | ask source request more ih => exact ih _ _

theorem run_forEach_cons {γ : Type} (f : γ → Script Unit) (x : γ) (rest : List γ) (s : Session) :
    ((forEach f (x :: rest)).run s).session =
      ((forEach f rest).run ((f x).run s).session).session :=
  (run_andThen (f x) _ s).1

theorem run_requestAll_cons (source : String) (request : Request) (rest : List Request)
    (s : Session) : ((requestAll source (request :: rest)).run s).session =
      ((requestAll source rest).run (s.perform source request).session).session :=
  rfl

end Script

namespace Session

variable {s t : Session} {pos : Nat} {content : Text} {edits : Nat → Option Text}

/-! ### One position -/

theorem replace_of_idle (source : String) (idle : s.batch = none) (calm : s.conflict = false)
    (pos : Nat) (content : Text) : s.replace source pos content = s.apply source pos content := by
  simp [replace, idle, calm]

theorem Edited.replace_eq_apply (edited : Edited edits s t) (source : String)
    (idle : s.batch = none) (calm : s.conflict = false) (pos : Nat) (content : Text) :
    t.replace source pos content = t.apply source pos content :=
  replace_of_idle source (edited.batch_eq.trans idle) (edited.conflict_eq.trans calm) pos content

theorem Edited.replace_of_edited (edited : Edited edits s t) (source : String)
    (idle : s.batch = none) (calm : s.conflict = false) (content : Text)
    (before : (edits pos).isSome) : (t.replace source pos content).session = t := by
  have taken : ¬t.Free pos := edited.landed.not_free before
  rw [edited.replace_eq_apply source idle calm,
    (apply_of_not_lands source (fun lands => taken lands.1)).2]
  simp [raise, taken]

theorem Edited.replace (edited : Edited edits s t) (source : String) (idle : s.batch = none)
    (calm : s.conflict = false) (lands : s.Lands pos content) :
    Edited (fun q => (edits q).or (if q = pos then some content else none)) s
      (t.replace source pos content).session := by
  cases before : edits pos with
  | none =>
    have lands : t.Lands pos content := edited.lands_iff.mpr ⟨lands, before⟩
    rw [edited.replace_eq_apply source idle calm, (apply_of_lands source lands).2]
    exact edited.trans (Edited.of_land lands.1)
  | some earlier =>
    rw [edited.replace_of_edited source idle calm content (by simp [before])]
    apply edited.congr
    intro q
    by_cases here : q = pos
    · simp [here, before]
    · simp [here]

theorem Edited.appendNewline (edited : Edited edits s t) (source : String) (idle : s.batch = none)
    (calm : s.conflict = false) {token : Text} (read : s.tokens[pos]? = some token)
    (lands : s.Lands pos (token ++ s.terminator)) :
    Edited (fun q => (edits q).or (if q = pos then some (token ++ s.terminator) else none)) s
      (t.appendNewline source pos).session := by
  have asks : (t.appendNewline source pos).session =
      (t.replace source pos (token ++ s.terminator)).session := by
    have seen : t.content pos = (edits pos).or (some token) := by
      rw [Session.content, edited.batch_eq, idle, ← read]
      exact edited.landed.tokens pos
    unfold Session.appendNewline append modify
    cases before : edits pos with
    | none => rw [seen, before, edited.terminator_eq, Option.none_or]
    | some earlier =>
      have taken : (edits pos).isSome := by simp [before]
      rw [seen, before, Option.some_or]
      simp only [edited.replace_of_edited source idle calm _ taken]
  rw [asks]
  exact edited.replace source idle calm lands

/-! ### Several positions at once -/

theorem run_requestAll_replace (source : String) (positions : List Nat) (rest : List Request)
    (batch : Batch) (calm : s.conflict = false) :
    ((Script.requestAll source (positions.map (Request.replace · []) ++ rest)).run
        { s with batch := some batch }).session =
      ((Script.requestAll source rest).run
        { s with batch := some (positions.foldl (fun b pos => b.insert pos []) batch) }).session := by
  induction positions generalizing batch with
  | nil => rfl
  | cons pos positions ih =>
    rw [List.map_cons, List.cons_append, Script.run_requestAll_cons, List.foldl_cons, ← ih]
    simp [perform, Session.replace, calm]

theorem entries_foldl_insert (positions : List Nat) (batch : Batch) (distinct : positions.Nodup)
    (fresh : ∀ pos ∈ positions, batch.get? pos = none) :
    (positions.foldl (fun b pos => b.insert pos []) batch).entries =
      batch.entries ++ positions.map fun pos => (pos, []) := by
  induction positions generalizing batch with
  | nil => simp
  | cons pos positions ih =>
    obtain ⟨new, distinct⟩ := List.nodup_cons.mp distinct
    rw [List.foldl_cons, ih _ distinct, Slots.entries_insert _ (fresh pos List.mem_cons_self)]
    · simp
    · intro q member
      rw [Slots.get?_insert, if_neg (ne_of_mem_of_not_mem member new)]
      exact fresh q (List.mem_cons_of_mem pos member)

def cleared (positions : List Nat) : Batch := positions.foldl (fun b pos => b.insert pos []) ∅

theorem entries_cleared {positions : List Nat} (distinct : positions.Nodup) :
    (cleared positions).entries = positions.map fun pos => (pos, []) := by
  rw [cleared, entries_foldl_insert positions ∅ distinct (fun _ _ => rfl)]
  rfl

theorem beginBatch_of_idle (source : String) (idle : s.batch = none) (calm : s.conflict = false) :
    s.beginBatch source = ⟨true, { s with batch := some ∅ }, [.batchStarted source]⟩ := by
  simp [beginBatch, calm, batchOpen, idle]

theorem run_clearAll (source : String) (positions : List Nat) (idle : s.batch = none)
    (calm : s.conflict = false) :
    ((Script.clearAll source positions).run s).session =
      (({ s with batch := some (cleared positions) } : Session).endBatch source).session := by
  have run : ((Script.clearAll source positions).run s).session =
      ((Script.requestAll source (positions.map (Request.replace · []) ++ [.endBatch])).run
        { s with batch := some ∅ }).session := by
    simp only [Script.clearAll, Script.request, Script.andThen, Script.run, perform,
      beginBatch_of_idle source idle calm, if_true]
  rw [run, run_requestAll_replace source positions _ ∅ calm]
  rfl

theorem Edited.endBatch_cleared (edited : Edited edits s t) (source : String)
    (idle : s.batch = none) (calm : s.conflict = false) {positions : List Nat}
    (distinct : positions.Nodup) (lands : ∀ pos ∈ positions, s.Lands pos [])
    (untouched : ∀ pos ∈ positions, edits pos = none) :
    (({ t with batch := some (cleared positions) } : Session).endBatch source).accepted = true ∧
      Edited (fun q => (edits q).or (Slots.find q (positions.map fun pos => (pos, [])))) s
        (({ t with batch := some (cleared positions) } : Session).endBatch source).session := by
  have idle' : t.batch = none := edited.batch_eq.trans idle
  have calm' : t.conflict = false := edited.conflict_eq.trans calm
  have entries := entries_cleared distinct
  have closes : ({ t with batch := some (cleared positions) } : Session).closed = t := by
    rw [closed, ← idle']
  rcases endBatch_cases source (s := { t with batch := some (cleared positions) }) rfl calm' with
    ⟨_, accepted, _, session⟩ | ⟨before, held, after, split, _, stops, _⟩
  · rw [session, closes, entries]
    refine ⟨accepted, edited.trans (Edited.of_landAll (by simpa [Function.comp_def] using distinct) ?_)⟩
    intro e member
    obtain ⟨pos, listed, rfl⟩ := List.mem_map.mp member
    exact (edited.lands_iff.mpr ⟨lands pos listed, untouched pos listed⟩).1
  · have member : held ∈ positions.map fun pos => (pos, ([] : Text)) := by
      rw [← entries, split]
      simp
    obtain ⟨pos, listed, rfl⟩ := List.mem_map.mp member
    exact (stops (edited.lands_iff.mpr ⟨lands pos listed, untouched pos listed⟩)).elim

theorem Edited.clearAll (edited : Edited edits s t) (source : String) (idle : s.batch = none)
    (calm : s.conflict = false) {positions : List Nat} (distinct : positions.Nodup)
    (lands : ∀ pos ∈ positions, s.Lands pos []) (untouched : ∀ pos ∈ positions, edits pos = none) :
    Edited (fun q => (edits q).or (Slots.find q (positions.map fun pos => (pos, [])))) s
      ((Script.clearAll source positions).run t).session := by
  rw [run_clearAll source positions (edited.batch_eq.trans idle) (edited.conflict_eq.trans calm)]
  exact (edited.endBatch_cleared source idle calm distinct lands untouched).2

/-! ### Whole sweeps -/

theorem untouched_or {γ : Type} {x : γ} {rest : List γ} {whole : Nat → Prop}
    {want : γ → Nat → Option Text}
    (apart : ∀ y ∈ rest, ∀ q, whole q → (want x q).isSome → want y q = none)
    (untouched : ∀ y ∈ rest, ∀ q, whole q → (want y q).isSome → edits q = none) :
    ∀ y ∈ rest, ∀ q, whole q → (want y q).isSome → (edits q).or (want x q) = none := by
  intro y member q marked wanted
  have different : want x q = none := by
    by_contra both
    rw [apart y member q marked (Option.isSome_iff_ne_none.mpr both)] at wanted
    cases wanted
  rw [untouched y member q marked wanted, different]
  rfl

/-- A sweep in which a later part wants some positions untouched by the parts before it. -/
theorem Edited.forEach {γ : Type} {f : γ → Script Unit} {items : List γ} {whole : Nat → Prop}
    (edited : Edited edits s t) (want : γ → Nat → Option Text)
    (step : ∀ x ∈ items, ∀ edits t, Edited edits s t →
      (∀ q, whole q → (want x q).isSome → edits q = none) →
      Edited (fun q => (edits q).or (want x q)) s ((f x).run t).session)
    (apart : items.Pairwise fun x y => ∀ q, whole q → (want x q).isSome → want y q = none)
    (untouched : ∀ x ∈ items, ∀ q, whole q → (want x q).isSome → edits q = none) :
    Edited (fun q => (edits q).or (items.findSome? (want · q))) s
      ((Script.forEach f items).run t).session := by
  induction items generalizing t edits with
  | nil => exact edited.congr (by simp)
  | cons x rest ih =>
    obtain ⟨first, apart⟩ := List.pairwise_cons.mp apart
    obtain ⟨free, others⟩ := List.forall_mem_cons.mp untouched
    have here := step x List.mem_cons_self edits t edited free
    rw [Script.run_forEach_cons]
    have there := ih here (fun y member => step y (List.mem_cons_of_mem x member)) apart
      (untouched_or first others)
    apply there.congr
    intro q
    rw [List.findSome?_cons, Option.or_assoc]
    cases want x q <;> rfl

end Session

end Retouch
