import Retouch.Proofs.Run.Settling
import Retouch.Proofs.Session.Exchange

/-!
The passes of a run in a row. Each pass is entered from the session that the pass before left, over
the tokens that the host cut, and ends where its script leads; what a session remembers of its past
goes along. Statements about all passes of a run, whatever the host, are inductions on `Linked`.
-/

namespace Retouch

variable {σ : Type} {s : Session} {passes : List (Pass σ)} {p q : Pass σ}

/-- Each pass is entered from where the one before ended, and leads to where its script leads. -/
inductive Linked : Session → List (Pass σ) → Prop where
  | nil (s : Session) : Linked s []
  | cons {s : Session} {p : Pass σ} {rest : List (Pass σ)}
      (entered : p.entered = (Host.enterPass s p.loaded).1)
      (ran : p.session = (p.script.run p.entered).session)
      (next : Linked (Host.closeLeftover p.session).1 rest) : Linked s (p :: rest)

namespace Host

theorem loop_linked (host : Host σ) (fixable left : Nat) (s : Session) (state : σ) :
    Linked s (host.loop fixable left s state).passes := by
  induction left generalizing s state with
  | zero => exact .nil s
  | succ left ih =>
    cases stop : settled (host.pass s state).2.1 with
    | true =>
      obtain ⟨-, -, -, passes⟩ := loop_of_settled host fixable left stop
      rw [passes]
      exact .cons rfl rfl (.nil _)
    | false =>
      obtain ⟨-, -, -, passes⟩ := loop_of_unsettled host fixable left stop
      rw [passes]
      exact .cons rfl rfl (ih _ _)

theorem fix_linked (host : Host σ) (s : Session) (state : σ) :
    Linked s.restart.1 (host.fix s state).passes := by
  by_cases idle : host.fixable state = 0
  · rw [fix_of_idle host s idle]
    exact .nil _
  · rw [(fix_of_busy host s idle).2.2.2]
    exact loop_linked host _ _ _ state

theorem mem_passes_loop {host : Host σ} {fixable left : Nat} {s : Session} {state : σ}
    (member : p ∈ (host.loop fixable left s state).passes) :
    p = (host.pass s state).1 ∨ settled (host.pass s state).2.1 = false ∧ ∃ left,
      p ∈ (host.loop fixable left (host.pass s state).2.1 (host.pass s state).2.2.1).passes := by
  cases left with
  | zero => simp [loop] at member
  | succ left =>
    cases stop : settled (host.pass s state).2.1 with
    | true =>
      obtain ⟨-, -, -, passes⟩ := loop_of_settled host fixable left stop
      rw [passes] at member
      exact Or.inl (List.mem_singleton.mp member)
    | false =>
      obtain ⟨-, -, -, passes⟩ := loop_of_unsettled host fixable left stop
      rw [passes] at member
      exact (List.mem_cons.mp member).imp_right fun later => ⟨rfl, left, later⟩

theorem loop_last_settled (host : Host σ) {fixable left n : Nat} {s : Session} {state : σ}
    (converged : (host.loop fixable left s state).outcome = .converged n) :
    ∃ earlier last, (host.loop fixable left s state).passes = earlier ++ [last] ∧
      settled (closeLeftover last.session).1 = true := by
  induction left generalizing s state with
  | zero => cases converged
  | succ left ih =>
    cases stop : settled (host.pass s state).2.1 with
    | true =>
      obtain ⟨-, -, -, passes⟩ := loop_of_settled host fixable left stop
      exact ⟨[], _, passes, stop⟩
    | false =>
      obtain ⟨outcome, -, -, passes⟩ := loop_of_unsettled host fixable left stop
      obtain ⟨earlier, last, split, settles⟩ := ih (outcome.symm.trans converged)
      exact ⟨_ :: earlier, last, by rw [passes, split]; rfl, settles⟩

/-- A run that converges ends with a pass after which nothing is fixed and no conflict stands. -/
theorem fix_last_settled (host : Host σ) {s : Session} {state : σ} {n : Nat}
    (converged : (host.fix s state).outcome = .converged n) :
    ∃ earlier last, (host.fix s state).passes = earlier ++ [last] ∧
      settled (closeLeftover last.session).1 = true := by
  by_cases idle : host.fixable state = 0
  · rw [fix_of_idle host s idle] at converged
    cases converged
  · obtain ⟨outcome, -, -, passes⟩ := fix_of_busy host s idle
    rw [passes]
    exact loop_last_settled host (outcome.symm.trans converged)

theorem closeLeftover_records (s : Session) :
    (closeLeftover s).1.history.records = s.history.records := by
  unfold closeLeftover
  split <;> rfl

end Host

namespace Linked

variable (linked : Linked s passes)

include linked

theorem entered_zero (first : passes[0]? = some p) :
    p.entered = (Host.enterPass s p.loaded).1 := by
  cases linked with
  | nil => simp at first
  | cons entered _ _ =>
    obtain rfl := Option.some.inj first
    exact entered

theorem entered_succ {i : Nat} (here : passes[i]? = some p) (next : passes[i + 1]? = some q) :
    q.entered = (Host.enterPass (Host.closeLeftover p.session).1 q.loaded).1 := by
  induction linked generalizing i with
  | nil s => simp at here
  | cons _ _ others ih =>
    cases i with
    | zero =>
      obtain rfl := Option.some.inj here
      exact others.entered_zero next
    | succ i => exact ih here next

theorem entered_of_mem (member : p ∈ passes) :
    ∃ before, p.entered = (Host.enterPass before p.loaded).1 := by
  induction linked with
  | nil s => simp at member
  | @cons s q rest entered _ _ ih =>
    rcases List.mem_cons.mp member with rfl | later
    · exact ⟨s, entered⟩
    · exact ih later

theorem session_of_mem (member : p ∈ passes) :
    p.session = (p.script.run p.entered).session := by
  induction linked with
  | nil s => simp at member
  | cons _ ran _ ih =>
    rcases List.mem_cons.mp member with rfl | later
    · exact ran
    · exact ih later

theorem entered_exclusive (member : p ∈ passes) : p.entered.Exclusive := by
  obtain ⟨before, entered⟩ := linked.entered_of_mem member
  rw [entered]
  exact fun _ => rfl

theorem exclusive_of_mem (member : p ∈ passes) : p.session.Exclusive := by
  rw [linked.session_of_mem member]
  exact p.script.run_exclusive (linked.entered_exclusive member)

theorem landed_of_mem (member : p ∈ passes) :
    ∃ edits, Session.Landed edits (.new p.loaded) p.entered := by
  obtain ⟨before, entered⟩ := linked.entered_of_mem member
  rw [entered]
  exact ⟨_, (Session.Landed.refl _).transfer rfl rfl rfl rfl⟩

theorem number_succ {i : Nat} (here : passes[i]? = some p) (next : passes[i + 1]? = some q) :
    q.entered.pass = p.entered.pass + 1 := by
  have closed := Host.closeLeftover_settings p.session
  have kept := Host.run_settings p.script p.entered
  rw [← linked.session_of_mem (List.mem_of_getElem? here)] at kept
  rw [linked.entered_succ here next]
  exact congrArg (fun settings => settings.1 + 1) (closed.trans kept)

theorem number {i : Nat} (here : passes[i]? = some p) : p.entered.pass = s.pass + i + 1 := by
  induction i generalizing p with
  | zero =>
    rw [linked.entered_zero here]
    rfl
  | succ i ih =>
    have inside : i < passes.length := by
      have := (List.getElem?_eq_some_iff.mp here).1
      omega
    rw [linked.number_succ (List.getElem?_eq_getElem inside) here,
      ih (List.getElem?_eq_getElem inside)]
    omega

end Linked

end Retouch
