import Retouch.Proofs.Run.Passes

/-!
Runs that edit stable tokens one by one. As long as each pass loads the tokens that the pass before
left, and nothing but single edits is asked for, the record of a position tells the truth about it:
its recent content is what the position holds, and its previous content what the position held
before its last fix. So every edit that would take back the last pass is caught.
-/

namespace Retouch

variable {σ α : Type}

def Request.isEdit : Request → Bool
  | replace .. | append .. | prepend .. | appendNewline _ | prependNewline _ | slice .. => true
  | _ => false

namespace Session

variable {s t u : Session} {pos : Nat} {content : Text} {edits later : Nat → Option Text}

def edit? (s : Session) : Request → Option (Nat × Text)
  | .replace pos content => some (pos, content)
  | .append pos text => (s.content pos).map fun current => (pos, current ++ text)
  | .prepend pos text => (s.content pos).map fun current => (pos, text ++ current)
  | .appendNewline pos => (s.content pos).map fun current => (pos, current ++ s.terminator)
  | .prependNewline pos => (s.content pos).map fun current => (pos, s.terminator ++ current)
  | .slice pos start len => (s.content pos).map fun current =>
    (pos, match len with
      | some n => (current.drop start).take n
      | none => current.drop start)
  | _ => none

/-! ### Requests for one edit -/

theorem modify_of_map {f : Text → Text} {target : Nat × Text} (source : String)
    (asks : ((s.content pos).map fun current => (pos, f current)) = some target) :
    s.modify source pos f = s.replace source target.1 target.2 := by
  obtain ⟨current, read, rfl⟩ := Option.map_eq_some_iff.mp asks
  simp [modify, read]

theorem perform_of_edit? (source : String) {request : Request} {target : Nat × Text}
    (asks : s.edit? request = some target) :
    s.perform source request = s.replace source target.1 target.2 := by
  cases request with
  | replace pos content =>
    obtain rfl := Option.some.inj asks
    rfl
  | append pos text => exact modify_of_map source asks
  | prepend pos text => exact modify_of_map source asks
  | appendNewline pos => exact modify_of_map source asks
  | prependNewline pos => exact modify_of_map source asks
  | slice pos start len => exact modify_of_map source asks
  | _ => cases asks

theorem modify_of_none {f : Text → Text} {g : Text → Nat × Text} (source : String)
    (none : (s.content pos).map g = none) : (s.modify source pos f).session = s := by
  simp [modify, Option.map_eq_none_iff.mp none]

theorem perform_of_none (source : String) {request : Request} (single : request.isEdit)
    (none : s.edit? request = none) : (s.perform source request).session = s := by
  cases request with
  | replace pos content => cases none
  | append pos text => exact modify_of_none source none
  | prepend pos text => exact modify_of_none source none
  | appendNewline pos => exact modify_of_none source none
  | prependNewline pos => exact modify_of_none source none
  | slice pos start len => exact modify_of_none source none
  | _ => cases single

theorem lands_of_accepted {source : String} (idle : s.batch = none)
    (accepted : (s.replace source pos content).accepted = true) :
    s.Lands pos content ∧ (s.replace source pos content).session = s.land pos content := by
  have calm : s.conflict = false := by
    by_contra raised
    simp [replace, eq_true_of_ne_false raised] at accepted
  rw [replace_of_idle source idle calm] at accepted ⊢
  have lands : s.Lands pos content := by
    by_contra held
    rw [(apply_of_not_lands source held).1] at accepted
    cases accepted
  exact ⟨lands, (apply_of_lands source lands).2⟩

/-! ### Advances -/

/-- Single edits lead from `s` to `t`: exactly these landed, none of them a bounce-back, and apart
from them only the conflict may have changed. -/
structure Advanced (edits : Nat → Option Text) (s t : Session) : Prop where
  edited : Edited edits s { t with conflict := s.conflict }
  moves : ∀ pos content, edits pos = some content → ¬s.BouncesBack pos content

theorem Edited.withConflict (edited : Edited edits s t) (conflict : Bool) :
    Edited edits { s with conflict := conflict } { t with conflict := conflict } := by
  refine ⟨edited.landed.transfer rfl rfl rfl rfl, edited.records, ?_⟩
  exact congrArg (fun x : Session => { x with conflict := conflict }) edited.rest

namespace Advanced

theorem refl (s : Session) : Advanced (fun _ => none) s s :=
  ⟨Edited.refl s, fun _ _ none => by cases none⟩

theorem raise (s : Session) (clash : Bool) : Advanced (fun _ => none) s (s.raise clash) :=
  ⟨Edited.refl s, fun _ _ none => by cases none⟩

theorem of_land (lands : s.Lands pos content) :
    Advanced (fun q => if q = pos then some content else none) s (s.land pos content) := by
  refine ⟨Edited.of_land lands.1, fun q other edited => ?_⟩
  split at edited
  · next here =>
    obtain rfl := Option.some.inj edited
    exact here ▸ lands.2
  · cases edited

section

variable (advanced : Advanced edits s t)

include advanced

theorem pass_eq : t.pass = s.pass := advanced.edited.pass_eq

theorem batch_eq : t.batch = s.batch := advanced.edited.batch_eq

theorem tokens (pos : Nat) : t.tokens[pos]? = (edits pos).or s.tokens[pos]? :=
  advanced.edited.landed.tokens pos

theorem record?_of_not_edited (untouched : edits pos = none) :
    t.history.record? pos = s.history.record? pos :=
  advanced.edited.record?_of_not_edited untouched

theorem free_iff : t.Free pos ↔ s.Free pos ∧ edits pos = none :=
  advanced.edited.landed.free_iff

theorem bouncesBack_iff (untouched : edits pos = none) :
    t.BouncesBack pos content ↔ s.BouncesBack pos content := by
  rw [BouncesBack, BouncesBack, advanced.record?_of_not_edited untouched, advanced.pass_eq]

theorem edits_of_changed {a b : Text} (before : s.tokens[pos]? = some a)
    (after : t.tokens[pos]? = some b) (different : a ≠ b) : edits pos = some b := by
  rw [advanced.tokens pos, before] at after
  cases edited : edits pos with
  | none =>
    rw [edited, Option.none_or] at after
    exact (different (Option.some.inj after)).elim
  | some content =>
    rw [edited, Option.some_or] at after
    exact after

theorem trans (next : Advanced later t u) :
    Advanced (fun pos => (edits pos).or (later pos)) s u := by
  refine ⟨advanced.edited.trans (next.edited.withConflict s.conflict), fun pos content edited => ?_⟩
  cases before : edits pos with
  | some earlier =>
    rw [before, Option.some_or] at edited
    exact advanced.moves pos content (before.trans edited)
  | none =>
    rw [before, Option.none_or] at edited
    rw [← advanced.bouncesBack_iff before]
    exact next.moves pos content edited

end

end Advanced

theorem perform_advanced (source : String) {request : Request} (idle : s.batch = none)
    (single : request.isEdit) : ∃ edits, Advanced edits s (s.perform source request).session := by
  cases asks : s.edit? request with
  | none =>
    rw [perform_of_none source single asks]
    exact ⟨_, .refl s⟩
  | some target =>
    rw [perform_of_edit? source asks]
    cases calm : s.conflict with
    | true =>
      have refused : (s.replace source target.1 target.2).session = s := by simp [replace, calm]
      rw [refused]
      exact ⟨_, .refl s⟩
    | false =>
      rw [replace_of_idle source idle calm]
      by_cases lands : s.Lands target.1 target.2
      · rw [(apply_of_lands source lands).2]
        exact ⟨_, .of_land lands⟩
      · rw [(apply_of_not_lands source lands).2]
        exact ⟨_, .raise s _⟩

theorem run_advanced {script : Script α} (idle : s.batch = none)
    (single : ∀ e ∈ script.trace s, e.request.isEdit) :
    (∃ edits, Advanced edits s (script.run s).session) ∧
      ∀ e ∈ script.trace s, (∃ edits, Advanced edits s e.before) ∧
        ∃ edits, Advanced edits e.step.session (script.run s).session := by
  induction script generalizing s with
  | done result => exact ⟨⟨_, .refl s⟩, by simp [Script.trace]⟩
  | look next ih => exact ih _ idle single
  | say notice next ih => exact ih idle single
  | ask source request next ih =>
    obtain ⟨first, others⟩ := List.forall_mem_cons.mp single
    obtain ⟨now, step⟩ := perform_advanced source idle first
    obtain ⟨⟨then_, rest⟩, exchanges⟩ := ih _ (step.batch_eq.trans idle) others
    refine ⟨⟨_, step.trans rest⟩, List.forall_mem_cons.mpr ⟨⟨⟨_, .refl s⟩, ⟨_, rest⟩⟩, ?_⟩⟩
    intro e member
    obtain ⟨⟨_, before⟩, after⟩ := exchanges e member
    exact ⟨⟨_, step.trans before⟩, after⟩

/-! ### Records that tell the truth -/

def Current (s : Session) : Prop :=
  ∀ pos r, s.history.record? pos = some r → s.tokens[pos]? = some r.recent

theorem Advanced.record?_of_edited (advanced : Advanced edits s t) (current : s.Current)
    {a b : Text} (held : s.tokens[pos]? = some a) (edited : edits pos = some b) :
    t.history.record? pos = some ⟨a, b, s.pass⟩ := by
  have recorded := advanced.edited.records pos
  rw [edited, held] at recorded
  refine recorded.trans (congrArg some ?_)
  -- An earlier record passes on its recent content, which is what the position holds.
  unfold nextRecord
  cases before : s.history.record? pos with
  | none => rfl
  | some r =>
    have same := current pos r before
    rw [held] at same
    rw [Option.some.inj same]

theorem Advanced.current (advanced : Advanced edits s t) (current : s.Current) : t.Current := by
  intro pos r recorded
  rw [advanced.tokens pos]
  cases edited : edits pos with
  | none =>
    rw [advanced.record?_of_not_edited edited] at recorded
    exact current pos r recorded
  | some b =>
    obtain ⟨inside, -⟩ := advanced.edited.landed.free pos (by simp [edited])
    rw [advanced.record?_of_edited current (List.getElem?_eq_getElem inside) edited] at recorded
    obtain rfl := Option.some.inj recorded
    rfl

end Session

open Session (Advanced Current)

/-! ### Passes over stable tokens -/

namespace Linked

variable {s : Session} {passes : List (Pass σ)} {p q : Pass σ} {pos : Nat} {a b : Text} {i : Nat}

theorem entered_idle (linked : Linked s passes) (member : p ∈ passes) : p.entered.batch = none := by
  obtain ⟨before, entered⟩ := linked.entered_of_mem member
  rw [entered]
  rfl

theorem pass_advanced (linked : Linked s passes) (member : p ∈ passes)
    (single : ∀ e ∈ p.exchanges, e.request.isEdit) :
    (∃ edits, Advanced edits p.entered p.session) ∧
      ∀ e ∈ p.exchanges, (∃ edits, Advanced edits p.entered e.before) ∧
        ∃ edits, Advanced edits e.step.session p.session := by
  rw [linked.session_of_mem member]
  exact Session.run_advanced (linked.entered_idle member) single

theorem record?_succ (linked : Linked s passes) (here : passes[i]? = some p)
    (next : passes[i + 1]? = some q) (pos : Nat) :
    q.entered.history.record? pos = p.session.history.record? pos := by
  rw [linked.entered_succ here next, History.record?, History.record?,
    ← Host.closeLeftover_records p.session]
  rfl

theorem tokens_succ (linked : Linked s passes)
    (stable : passes.IsChain fun p q => q.loaded = p.session.tokens) (here : passes[i]? = some p)
    (next : passes[i + 1]? = some q) : q.entered.tokens = p.session.tokens := by
  rw [linked.entered_succ here next]
  obtain ⟨_, rfl⟩ := List.getElem?_eq_some_iff.mp here
  obtain ⟨inside, rfl⟩ := List.getElem?_eq_some_iff.mp next
  exact List.isChain_iff_getElem.mp stable i inside

theorem bouncesBack_succ (linked : Linked s passes) (here : passes[i]? = some p)
    (next : passes[i + 1]? = some q)
    (recorded : p.session.history.record? pos = some ⟨a, b, p.entered.pass⟩) :
    q.entered.BouncesBack pos a :=
  ⟨_, (linked.record?_succ here next pos).trans recorded, rfl, (linked.number_succ here next).symm⟩

section Stable

variable (linked : Linked s passes) (empty : ∀ pos, s.history.record? pos = none)
  (stable : passes.IsChain fun p q => q.loaded = p.session.tokens)
  (single : ∀ p ∈ passes, ∀ e ∈ p.exchanges, e.request.isEdit)

include linked empty stable single

theorem current (here : passes[i]? = some p) : p.entered.Current := by
  induction i generalizing p with
  | zero =>
    intro pos r recorded
    rw [linked.entered_zero here] at recorded
    have none : s.history.record? pos = some r := recorded
    rw [empty pos] at none
    cases none
  | succ i ih =>
    have inside : i + 1 < passes.length := (List.getElem?_eq_some_iff.mp here).1
    have before : passes[i]? = some passes[i] := List.getElem?_eq_getElem (by omega)
    obtain ⟨⟨edits, advanced⟩, -⟩ :=
      linked.pass_advanced (List.getElem_mem _) (single passes[i] (List.getElem_mem _))
    intro pos r recorded
    rw [linked.record?_succ before here] at recorded
    rw [linked.tokens_succ stable before here]
    exact advanced.current (ih before) pos r recorded

/-- After a pass, the record of a position that it fixed tells of that fix. -/
theorem record?_of_fix (here : passes[i]? = some p) {e : Script.Exchange} (member : e ∈ p.exchanges)
    (asks : e.before.edit? e.request = some (pos, b)) (held : e.before.tokens[pos]? = some a)
    (accepted : e.step.accepted = true) :
    p.session.history.record? pos = some ⟨a, b, p.entered.pass⟩ := by
  have listed := List.mem_of_getElem? here
  obtain ⟨⟨_, before⟩, ⟨later, after⟩⟩ := (linked.pass_advanced listed (single p listed)).2 e member
  have idle : e.before.batch = none := before.batch_eq.trans (linked.entered_idle listed)
  have step : e.step = e.before.replace e.source pos b :=
    (Script.step_of_mem_trace member).trans (Session.perform_of_edit? e.source asks)
  obtain ⟨lands, landed⟩ := Session.lands_of_accepted idle (step ▸ accepted)
  have fixed := Advanced.of_land lands
  rw [← landed, ← step] at fixed
  have recorded := fixed.record?_of_edited
    (before.current (linked.current empty stable single here)) held (if_pos rfl)
  -- A fixed position is fixed no second time in its pass.
  have taken : ¬e.step.session.Free pos := by simp [fixed.free_iff]
  have untouched : later pos = none := by
    by_contra again
    exact taken (after.edited.landed.free pos (Option.isSome_iff_ne_none.mpr again))
  rw [after.record?_of_not_edited untouched, recorded, before.pass_eq]

end Stable

end Linked

/-- If a host asks for single edits over the tokens that the pass before left, what a pass has fixed
is not taken back in the next: an edit that would do so is refused and raises the conflict. -/
theorem Host.fix_catches_returns (host : Host σ) (s : Session) (state : σ)
    (stable : (host.fix s state).passes.IsChain fun p q => q.loaded = p.session.tokens)
    (single : ∀ p ∈ (host.fix s state).passes, ∀ e ∈ p.exchanges, e.request.isEdit) :
    let passes := (host.fix s state).passes
    (∀ (i : Nat) p q, passes[i]? = some p → passes[i + 1]? = some q →
      ∀ e ∈ p.exchanges, ∀ pos a b, e.before.edit? e.request = some (pos, b) →
        e.before.tokens[pos]? = some a → e.step.accepted = true →
      ∀ back ∈ q.exchanges, back.before.edit? back.request = some (pos, a) →
        back.before.conflict = false → back.before.Free pos →
        back.step.accepted = false ∧
          back.step.session = { back.before with conflict := true }) ∧
    ∀ (i : Nat) p q r (pos : Nat) a b, passes[i]? = some p → passes[i + 1]? = some q →
      passes[i + 2]? = some r → p.session.tokens[pos]? = some a →
      q.session.tokens[pos]? = some b → r.session.tokens[pos]? = some a → a = b := by
  intro passes
  have linked := fix_linked host s state
  have empty : ∀ pos, s.restart.1.history.record? pos = none := fun _ => rfl
  refine ⟨?_, ?_⟩
  · intro i p q here next e member pos a b asks held accepted back later asksBack calm free
    have listed := List.mem_of_getElem? next
    have recorded := linked.record?_of_fix empty stable single here member asks held accepted
    obtain ⟨⟨edits, before⟩, -⟩ := (linked.pass_advanced listed (single q listed)).2 back later
    have bounces : back.before.BouncesBack pos a :=
      (before.bouncesBack_iff (before.free_iff.mp free).2).mpr
        (linked.bouncesBack_succ here next recorded)
    have idle := before.batch_eq.trans (linked.entered_idle listed)
    rw [Script.step_of_mem_trace later, Session.perform_of_edit? back.source asksBack,
      Session.replace_of_idle _ idle calm]
    obtain ⟨refused, session⟩ :=
      Session.apply_of_not_lands back.source (fun lands => lands.2 bounces)
    refine ⟨refused, session.trans ?_⟩
    simp [Session.raise, free]
  · intro i p q r pos a b here next last first second third
    by_contra different
    have listed := List.mem_of_getElem? next
    have listed' := List.mem_of_getElem? last
    obtain ⟨⟨edits, there⟩, -⟩ := linked.pass_advanced listed (single q listed)
    obtain ⟨⟨edits', again⟩, -⟩ := linked.pass_advanced listed' (single r listed')
    rw [← linked.tokens_succ stable here next] at first
    have fixed : edits pos = some b := there.edits_of_changed first second different
    rw [← linked.tokens_succ stable next last] at second
    have fixed' : edits' pos = some a := again.edits_of_changed second third (Ne.symm different)
    have recorded := there.record?_of_edited (linked.current empty stable single next) first fixed
    exact again.moves pos a fixed' (linked.bouncesBack_succ next last recorded)

def Host.marking : Host Nat where
  fixable _ := 1
  tokenize dispatches text := ([text], dispatches)
  dispatch dispatches :=
    if dispatches = 0 then .ask "mark" (.append 0 ['!']) fun _ => .done 1
    else .ask "cut" (.slice 0 0 (some 1)) fun _ => .done (dispatches + 1)

/-- The cut of the second pass is caught, and that of the third is not. -/
theorem Host.fix_catches_returns_marking :
    let run := marking.fix ((Session.new [['a']]).withMaxPasses 3) 0
    run.passes.IsChain (fun p q => q.loaded = p.session.tokens) ∧
    (∀ p ∈ run.passes, ∀ e ∈ p.exchanges, e.request.isEdit) ∧
    run.passes.map (fun p => p.session.tokens) = [[['a', '!']], [['a', '!']], [['a']]] ∧
    ∀ q, run.passes[1]? = some q → ∀ back ∈ q.exchanges, back.step.accepted = false ∧
      back.step.session = { back.before with conflict := true } := by
  intro run
  have stable : run.passes.IsChain (fun p q => q.loaded = p.session.tokens) := by decide
  have single : ∀ p ∈ run.passes, ∀ e ∈ p.exchanges, e.request.isEdit := by decide
  refine ⟨stable, single, by decide, ?_⟩
  intro q second back member
  obtain ⟨caught, -⟩ := fix_catches_returns marking _ 0 stable single
  obtain rfl := Option.some.inj second
  obtain rfl := List.mem_singleton.mp member
  exact caught 0 _ _ rfl rfl _ List.mem_cons_self 0 ['a'] ['a', '!'] rfl rfl rfl _ member rfl rfl
    (by decide)

end Retouch
