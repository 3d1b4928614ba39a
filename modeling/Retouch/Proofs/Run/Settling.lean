import Retouch.Proofs.Session.Marks

/-!
How a run of passes ends, for any host. The loop looks at a count of marks and at a flag; since
marks represent what changed, a pass that settles has left its tokens as they were loaded, whatever
the host asked for. `fix_settles` says when a run converges, when it fails, and what it leaves.
-/

namespace Retouch

variable {σ α : Type} {s : Session} {base : List Text}

def Pass.Settles (p : Pass σ) : Prop := p.session.fixCount = 0 ∧ p.session.conflict = false

instance (p : Pass σ) : Decidable p.Settles := inferInstanceAs (Decidable (_ ∧ _))

namespace Host

/-- Passes that follow each other. Each cuts the text that the one before left committed, enters
with the tokens cut, and runs the host's script once. -/
inductive Follows (host : Host σ) : Session → σ → List (Pass σ) → Session → σ → Prop where
  | nil (s : Session) (state : σ) : Follows host s state [] s state
  | cons {s after last : Session} {state cut final : σ} {p : Pass σ} {rest : List (Pass σ)}
      (text : p.text = s.contents) (tokenized : host.tokenize state p.text = (p.loaded, cut))
      (entered : p.entered = (enterPass s p.loaded).1) (dispatched : p.script = host.dispatch cut)
      (ran : p.session = (p.script.run p.entered).session)
      (left : after.tokens = p.session.tokens)
      (next : Follows host after (p.script.run p.entered).result rest last final) :
      Follows host s state (p :: rest) last final

/-! ### One pass -/

theorem run_settings (script : Script α) (s : Session) :
    (script.run s).session.settings = s.settings := by
  induction script generalizing s with
  | done result => rfl
  | look next ih => exact ih _ s
  | say notice next ih => exact ih s
  | ask source request next ih =>
    exact (ih _ _).trans (s.perform_settings source request)

theorem closeLeftover_tokens (s : Session) : (closeLeftover s).1.tokens = s.tokens := by
  unfold closeLeftover
  split <;> rfl

theorem closeLeftover_batch (s : Session) : (closeLeftover s).1.batch = none := by
  unfold closeLeftover
  split
  · rfl
  · rename_i shut
    simpa [Session.batchOpen] using shut

theorem closeLeftover_settings (s : Session) : (closeLeftover s).1.settings = s.settings := by
  unfold closeLeftover
  split <;> rfl

/-- Closing a leftover batch hides no conflict, since none stands beside an open batch. -/
theorem settled_closeLeftover (exclusive : s.Exclusive) :
    settled (closeLeftover s).1 = true ↔ s.fixCount = 0 ∧ s.conflict = false := by
  unfold closeLeftover
  split
  case isTrue opened =>
    have calm : s.conflict = false := by
      by_contra raised
      have idle := exclusive (eq_true_of_ne_false raised)
      simp [Session.batchOpen, idle] at opened
    simp [settled, Session.rollback, Session.fixCount, calm]
  case isFalse => simp [settled]

theorem pass_settles (host : Host σ) (state : σ) (reached : Reaches base s) :
    settled (host.pass s state).2.1 = true ↔ (host.pass s state).1.Settles :=
  settled_closeLeftover ((reached.enter _).run _).exclusive

theorem pass_number (host : Host σ) (s : Session) (state : σ) :
    (host.pass s state).2.1.pass = s.pass + 1 := by
  have closed := closeLeftover_settings (host.pass s state).1.session
  have ran := run_settings (host.pass s state).1.script (host.pass s state).1.entered
  exact congrArg Prod.fst (closed.trans ran)

/-! ### Batches left open -/

theorem tokens_of_open_trace (script : Script α)
    (landed : ∃ edits, Session.Landed edits (.new base) s)
    (opened : ∀ e ∈ script.trace s, e.step.session.batchOpen = true) (pos : Nat) :
    (script.run s).session.tokens[pos]? = s.tokens[pos]? ∨
      (script.run s).session.tokens[pos]? = base[pos]? := by
  induction script generalizing s with
  | done result => exact Or.inl rfl
  | look next ih => exact ih _ landed opened
  | say notice next ih => exact ih landed opened
  | ask source request next ih =>
    have here := opened _ List.mem_cons_self
    have later := ih _ (Session.perform_landed source request landed)
      (fun e member => opened e (List.mem_cons_of_mem _ member))
    obtain ⟨edits, landed⟩ := landed
    rcases Session.perform_of_open source request landed here pos with same | back
    · exact later.imp_left (·.trans same)
    · exact later.elim (fun kept => Or.inr (kept.trans back)) Or.inr

/-- From an exchange on after which a batch stays open to the end of a script, a token changes only
by going back to what the base has. -/
theorem tokens_of_open_suffix (script : Script α)
    (landed : ∃ edits, Session.Landed edits (.new base) s)
    {before after : List Script.Exchange} {e : Script.Exchange}
    (split : script.trace s = before ++ e :: after)
    (opened : ∀ x ∈ e :: after, x.step.session.batchOpen = true) (pos : Nat) :
    (script.run s).session.tokens[pos]? = e.before.tokens[pos]? ∨
      (script.run s).session.tokens[pos]? = base[pos]? := by
  induction script generalizing s before with
  | done result => simp [Script.trace] at split
  | look next ih => exact ih _ landed split
  | say notice next ih => exact ih landed split
  | ask source request next ih =>
    cases before with
    | nil =>
      obtain ⟨first, -⟩ := List.cons.inj split
      rw [← first]
      exact tokens_of_open_trace (.ask source request next) landed (split ▸ opened) pos
    | cons first before =>
      exact ih _ (Session.perform_landed source request landed) (List.cons.inj split).2

theorem Follows.entered {host : Host σ} {state final : σ} {last : Session} {passes : List (Pass σ)}
    (follows : Follows host s state passes last final) {p : Pass σ} (member : p ∈ passes) :
    (∃ edits, Session.Landed edits (.new p.loaded) p.entered) ∧
      p.session = (p.script.run p.entered).session := by
  induction follows with
  | nil => simp at member
  | cons _ _ entered _ ran _ _ ih =>
    rcases List.mem_cons.mp member with rfl | member
    · refine ⟨⟨_, (Session.Landed.refl _).transfer rfl rfl ?_ ?_⟩, ran⟩
      · rw [entered]
        rfl
      · rw [entered]
        rfl
    · exact ih member

theorem Follows.tokens_of_open {host : Host σ} {state final : σ} {last : Session}
    {passes : List (Pass σ)} (follows : Follows host s state passes last final) {p : Pass σ}
    (member : p ∈ passes) {before after : List Script.Exchange} {e : Script.Exchange}
    (split : p.exchanges = before ++ e :: after)
    (opened : ∀ x ∈ e :: after, x.step.session.batchOpen = true) (pos : Nat) :
    p.session.tokens[pos]? = e.before.tokens[pos]? ∨
      p.session.tokens[pos]? = p.loaded[pos]? := by
  obtain ⟨landed, ran⟩ := follows.entered member
  rw [ran]
  exact tokens_of_open_suffix p.script landed split opened pos

/-! ### All passes -/

theorem loop_of_settled (host : Host σ) (fixable left : Nat) {s : Session} {state : σ}
    (stop : settled (host.pass s state).2.1 = true) :
    let run := host.loop fixable (left + 1) s state
    run.outcome = .converged (host.pass s state).2.1.pass ∧
    run.session = (host.pass s state).2.1 ∧ run.state = (host.pass s state).2.2.1 ∧
    run.passes = [(host.pass s state).1] := by
  simp only [loop]
  rw [if_pos (by exact stop)]
  exact ⟨rfl, rfl, rfl, rfl⟩

theorem loop_of_unsettled (host : Host σ) (fixable left : Nat) {s : Session} {state : σ}
    (more : settled (host.pass s state).2.1 = false) :
    let run := host.loop fixable (left + 1) s state
    let tail := host.loop fixable left (host.pass s state).2.1 (host.pass s state).2.2.1
    run.outcome = tail.outcome ∧ run.session = tail.session ∧ run.state = tail.state ∧
    run.passes = (host.pass s state).1 :: tail.passes := by
  simp only [loop]
  rw [if_neg (by exact ne_true_of_eq_false more)]
  exact ⟨rfl, rfl, rfl, rfl⟩

/-- The loop ends with the first pass that settles, or with none and all its passes used. -/
theorem loop_settles (host : Host σ) (fixable left : Nat) (state : σ) (reached : Reaches base s)
    (shut : s.batch = none) :
    let run := host.loop fixable left s state
    Follows host s state run.passes run.session run.state ∧
    run.passes.length ≤ left ∧ run.session.batch = none ∧
    run.session.pass = s.pass + run.passes.length ∧
    ((∃ earlier last, run.passes = earlier ++ [last] ∧ (∀ p ∈ earlier, ¬p.Settles) ∧ last.Settles ∧
        run.session.fixCount = 0 ∧ run.outcome = .converged run.session.pass) ∨
      ((∀ p ∈ run.passes, ¬p.Settles) ∧ run.passes.length = left ∧
        run.outcome = .failed run.session.pass)) := by
  induction left generalizing base s state with
  | zero => exact ⟨.nil s state, Nat.le_refl _, shut, rfl, Or.inr ⟨by simp [loop], rfl, rfl⟩⟩
  | succ left ih =>
    have number := pass_number host s state
    have settles := pass_settles host state reached
    have follows : ∀ {rest last final},
        Follows host (host.pass s state).2.1 (host.pass s state).2.2.1 rest last final →
        Follows host s state ((host.pass s state).1 :: rest) last final :=
      fun next => .cons rfl rfl rfl rfl rfl (closeLeftover_tokens _) next
    intro run
    cases stop : settled (host.pass s state).2.1 with
    | true =>
      obtain ⟨outcome, session, state', passes⟩ := loop_of_settled host fixable left stop
      rw [session, state', passes, outcome]
      refine ⟨follows (.nil _ _), by simp, closeLeftover_batch _, number, Or.inl ?_⟩
      have none : (host.pass s state).2.1.fixCount = 0 := by
        simp only [settled, Bool.and_eq_true, beq_iff_eq] at stop
        exact stop.1
      exact ⟨[], _, rfl, by simp, settles.mp stop, none, rfl⟩
    | false =>
      obtain ⟨outcome, session, state', passes⟩ := loop_of_unsettled host fixable left stop
      have first : ¬(host.pass s state).1.Settles := by
        intro settled
        rw [settles.mpr settled] at stop
        cases stop
      obtain ⟨next, short, idle, count, ending⟩ :=
        ih (host.pass s state).2.2.1 (reached.pass host state) (closeLeftover_batch _)
      rw [session, state', passes, outcome]
      refine ⟨follows next, Nat.succ_le_succ short, idle, ?_, ?_⟩
      · rw [count, number, List.length_cons]
        omega
      · rcases ending with ⟨earlier, last, split, before, ends⟩ | ⟨none, full, outcome⟩
        · refine Or.inl ⟨_ :: earlier, last, by rw [split]; rfl, ?_, ends⟩
          exact List.forall_mem_cons.mpr ⟨first, before⟩
        · exact Or.inr ⟨List.forall_mem_cons.mpr ⟨first, none⟩, congrArg Nat.succ full, outcome⟩

/-! ### The whole run -/

theorem fix_of_idle (host : Host σ) (s : Session) {state : σ} (idle : host.fixable state = 0) :
    host.fix s state =
      ⟨.nothingToFix, s.restart.1, state, [], s.restart.2 ++ [.nothingToFix]⟩ := by
  simp [fix, idle]

theorem fix_of_busy (host : Host σ) (s : Session) {state : σ} (busy : host.fixable state ≠ 0) :
    let run := host.fix s state
    let loop := host.loop (host.fixable state) s.maxPasses s.restart.1 state
    run.outcome = loop.outcome ∧ run.session = loop.session ∧ run.state = loop.state ∧
      run.passes = loop.passes := by
  simp [fix, busy, Session.restart]

/-- Without a mark at its end, a run has left its last pass's tokens as they were loaded. -/
theorem loaded_last_of_fixCount (reached : Reaches base s) (host : Host σ) (state : σ)
    {earlier : List (Pass σ)} {last : Pass σ}
    (split : (host.fix s state).passes = earlier ++ [last])
    (none : (host.fix s state).session.fixCount = 0) :
    (host.fix s state).passes.getLast?.map Pass.loaded =
      some (host.fix s state).session.tokens := by
  obtain ⟨edits, landed⟩ := (reached.fix host state).landed
  have tokens := landed.tokens_of_fixCount none
  have loaded : (host.fix s state).passes.getLast?.map Pass.loaded = some last.loaded := by
    rw [split]
    simp
  rw [Reaches.lastLoaded, loaded] at tokens
  rw [loaded, tokens]
  rfl

/-- A run does nothing iff the host sees nothing to fix. Otherwise it converges iff its last pass is
the first that settles, and fails iff no pass does and the limit is used up. What a pass leaves in a
batch is lost. -/
theorem fix_settles (reached : Reaches base s) (host : Host σ) (state : σ) :
    let run := host.fix s state
    (run.outcome = .nothingToFix ↔ host.fixable state = 0) ∧
    (host.fixable state = 0 → run.passes = [] ∧ run.state = state ∧ run.session.tokens = s.tokens) ∧
    Follows host s.restart.1 state run.passes run.session run.state ∧
    run.passes.length ≤ s.maxPasses ∧ s.maxPasses ≤ 50 ∧
    (∀ n, run.outcome = .converged n ↔ n = run.passes.length ∧
      ∃ earlier last, run.passes = earlier ++ [last] ∧ (∀ p ∈ earlier, ¬p.Settles) ∧ last.Settles) ∧
    (∀ n, run.outcome = .failed n ↔ host.fixable state ≠ 0 ∧ n = s.maxPasses ∧
      run.passes.length = n ∧ ∀ p ∈ run.passes, ¬p.Settles) ∧
    run.outcome.passes = run.passes.length ∧ run.session.pass = run.passes.length ∧
    run.session.batch = none ∧
    (∀ p ∈ run.passes, ∀ (before after : List Script.Exchange) (e : Script.Exchange),
      p.exchanges = before ++ e :: after → (∀ x ∈ e :: after, x.step.session.batchOpen = true) →
      ∀ pos : Nat, p.session.tokens[pos]? = e.before.tokens[pos]? ∨
        p.session.tokens[pos]? = p.loaded[pos]?) ∧
    ∀ n, run.outcome = .converged n →
      run.passes.getLast?.map Pass.loaded = some run.session.tokens := by
  intro run
  have bound : s.maxPasses ≤ 50 := reached.maxPasses_le
  by_cases idle : host.fixable state = 0
  · have nothing : run = _ := fix_of_idle host s idle
    rw [nothing]
    have follows : Follows host s.restart.1 state [] s.restart.1 state := .nil _ _
    simp [idle, bound, Outcome.passes, Session.restart] at follows ⊢
    exact follows
  · obtain ⟨outcome, session, final, passes⟩ := fix_of_busy host s idle
    obtain ⟨follows, short, shut, count, ending⟩ :=
      loop_settles host (host.fixable state) s.maxPasses state reached.restart rfl
    rw [← session, ← final, ← passes] at follows
    rw [← session, ← passes] at count ending
    rw [← session] at shut
    rw [← passes] at short
    rw [← outcome] at ending
    have number : run.session.pass = run.passes.length := count.trans (Nat.zero_add _)
    rcases ending with ⟨earlier, last, split, before, settles, none, ends⟩ | ⟨none, full, ends⟩
    · have ends : run.outcome = .converged run.passes.length := number ▸ ends
      have member : last ∈ run.passes := split ▸ List.mem_append_right earlier List.mem_cons_self
      refine ⟨by simp [ends, idle], fun h => (idle h).elim, follows, short, bound, ?_, ?_,
        by rw [ends]; rfl, number, shut, fun _ member _ _ _ => follows.tokens_of_open member, ?_⟩
      · intro n
        rw [ends, Outcome.converged.injEq]
        exact ⟨fun same => ⟨same.symm, earlier, last, split, before, settles⟩, fun h => h.1.symm⟩
      · intro n
        rw [ends]
        constructor
        · intro failed
          cases failed
        · rintro ⟨_, _, _, none⟩
          exact (none last member settles).elim
      · exact fun _ _ => loaded_last_of_fixCount reached host state split none
    · have ends : run.outcome = .failed run.passes.length := number ▸ ends
      refine ⟨by simp [ends, idle], fun h => (idle h).elim, follows, short, bound, ?_, ?_,
        by rw [ends]; rfl, number, shut, fun _ member _ _ _ => follows.tokens_of_open member,
        by simp [ends]⟩
      · intro n
        rw [ends]
        constructor
        · intro converged
          cases converged
        · rintro ⟨_, earlier, last, split, _, settles⟩
          have member : last ∈ run.passes := split ▸ List.mem_append_right earlier List.mem_cons_self
          exact (none last member settles).elim
      · intro n
        rw [ends, Outcome.failed.injEq]
        exact ⟨fun same => ⟨idle, same ▸ full, same, none⟩, fun h => h.2.2.1⟩

def leaving : Host Nat where
  fixable _ := 1
  tokenize dispatches text := (text.map fun c => [c], dispatches)
  dispatch dispatches :=
    if dispatches = 0 then .ask "first" (.replace 0 ['z']) fun _ => .done 1
    else .ask "later" .beginBatch fun _ => .ask "later" (.replace 0 ['q']) fun _ => .done 2

theorem fix_settles_leaving :
    Reaches [['a'], ['b']] (.new [['a'], ['b']]) ∧
      (leaving.fix (.new [['a'], ['b']]) 0).outcome = .converged 2 ∧
      (leaving.fix (.new [['a'], ['b']]) 0).session.batch = none ∧
      (leaving.fix (.new [['a'], ['b']]) 0).session.tokens = [['z'], ['b']] := by
  have reached : Reaches [['a'], ['b']] (.new [['a'], ['b']]) := .new _
  have converged : (leaving.fix (.new [['a'], ['b']]) 0).outcome = .converged 2 := rfl
  obtain ⟨_, _, _, _, _, _, _, _, _, shut, _, loaded⟩ := fix_settles reached leaving 0
  exact ⟨reached, converged, shut, (Option.some.inj (loaded 2 converged)).symm⟩

end Host

end Retouch
