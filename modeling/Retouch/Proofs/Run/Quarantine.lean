import Retouch.Proofs.Run.Passes

/-!
A conflict shuts the session. No batch is open beside it, every request that takes nothing back is
refused and changes nothing, and so the run that closes a leftover batch at the end of the pass
finds none to close and the conflict still standing: `conflict_quarantine`.
-/

namespace Retouch

def Request.takesBack : Request → Bool
  | revert _ | rollback => true
  | _ => false

variable {σ α : Type} {s : Session} {base : List Text}

/-! ### One request -/

namespace Session

theorem replace_of_conflict (raised : s.conflict = true) (source : String) (pos : Nat)
    (content : Text) : s.replace source pos content = ⟨false, s, [.rejected source pos]⟩ := by
  rw [replace, if_pos raised]

theorem modify_of_conflict (raised : s.conflict = true) (source : String) (pos : Nat)
    (f : Text → Text) : ∃ notices, s.modify source pos f = ⟨false, s, notices⟩ := by
  unfold modify
  cases s.content pos with
  | none => exact ⟨_, rfl⟩
  | some current => exact ⟨_, replace_of_conflict raised source pos (f current)⟩

theorem beginBatch_of_conflict (raised : s.conflict = true) (source : String) :
    s.beginBatch source = ⟨false, s, []⟩ := by
  rw [beginBatch, if_pos raised]

theorem reindent_of_conflict (raised : s.conflict = true) (shut : s.batch = none) (source : String)
    (first last : Nat) (change : Int) :
    s.reindent source first last change = ⟨false, s, []⟩ := by
  have idle : s.batchOpen = false := by simp [batchOpen, shut]
  simp [reindent, idle, beginBatch_of_conflict raised]

/-- A session in conflict refuses all that takes nothing back, and stays as it is. -/
theorem perform_of_frozen (exclusive : s.Exclusive) (raised : s.conflict = true) (source : String)
    {request : Request} (onward : request.takesBack = false) :
    ∃ notices, s.perform source request = ⟨false, s, notices⟩ := by
  have shut := exclusive raised
  cases request with
  | replace pos content => exact ⟨_, replace_of_conflict raised source pos content⟩
  | revert pos => cases onward
  | beginBatch => exact ⟨_, beginBatch_of_conflict raised source⟩
  | endBatch => exact ⟨_, by rw [perform, endBatch, shut]⟩
  | rollback => cases onward
  | append pos text => exact modify_of_conflict raised source pos _
  | prepend pos text => exact modify_of_conflict raised source pos _
  | appendNewline pos => exact modify_of_conflict raised source pos _
  | prependNewline pos => exact modify_of_conflict raised source pos _
  | slice pos start len => exact modify_of_conflict raised source pos _
  | reindent first last change =>
    exact ⟨_, reindent_of_conflict raised shut source first last change⟩

end Session

/-! ### Scripts -/

namespace Script

theorem run_of_frozen {script : Script α} (exclusive : s.Exclusive) (raised : s.conflict = true)
    (onward : ∀ e ∈ script.trace s, e.request.takesBack = false) :
    (∀ e ∈ script.trace s, e.step.accepted = false ∧ e.step.session = s) ∧
      (script.run s).session = s := by
  induction script with
  | done result => exact ⟨by simp [trace], rfl⟩
  | look next ih => exact ih _ onward
  | say notice next ih => exact ih onward
  | ask source request next ih =>
    obtain ⟨first, later⟩ := List.forall_mem_cons.mp onward
    obtain ⟨notices, refused⟩ := Session.perform_of_frozen exclusive raised source first
    simp only [refused] at later
    obtain ⟨answers, still⟩ := ih _ later
    simp only [trace, run, refused]
    exact ⟨List.forall_mem_cons.mpr ⟨⟨rfl, rfl⟩, answers⟩, still⟩

end Script

/-! ### Runs -/

namespace Linked

variable {passes : List (Pass σ)} {p : Pass σ}

theorem frozen_of_mem (linked : Linked s passes) (member : p ∈ passes)
    {before after : List Script.Exchange} {e : Script.Exchange}
    (split : p.exchanges = before ++ e :: after) (raised : e.step.session.conflict = true)
    (onward : ∀ x ∈ after, x.request.takesBack = false) :
    (∀ x ∈ after, x.step.accepted = false) ∧ p.session = e.step.session := by
  have split : p.script.trace p.entered = before ++ e :: after := split
  have here : e ∈ p.script.trace p.entered := by
    rw [split]
    exact List.mem_append_right before List.mem_cons_self
  have exclusive := Script.exclusive_of_mem_trace (linked.entered_exclusive member) here
  obtain ⟨rest, follows, ends⟩ := Script.trace_suffix split
  rw [follows] at onward ⊢
  obtain ⟨answers, still⟩ := Script.run_of_frozen exclusive raised onward
  refine ⟨fun x later => (answers x later).1, ?_⟩
  rw [linked.session_of_mem member, ends, still]

end Linked

namespace Host

theorem closeLeftover_of_conflict (exclusive : s.Exclusive) (raised : s.conflict = true) :
    closeLeftover s = (s, []) := by
  have shut : s.batchOpen = false := by simp [Session.batchOpen, exclusive raised]
  simp [closeLeftover, shut]

theorem calm_of_converged {host : Host σ} {state : σ} {p : Pass σ} {n : Nat}
    (converged : (host.fix s state).outcome = .converged n)
    (last : (host.fix s state).passes.getLast? = some p) : p.session.conflict = false := by
  obtain ⟨earlier, final, split, settles⟩ := fix_last_settled host converged
  obtain rfl : final = p := by simpa [split] using last
  have member : final ∈ (host.fix s state).passes := by simp [split]
  have exclusive := (fix_linked host s state).exclusive_of_mem member
  exact ((settled_closeLeftover exclusive).mp settles).2

/-- A conflict and an open batch never stand together. As long as nothing is taken back, a session
in conflict refuses everything and stays as it is, and its pass is not the last of a run that
converges. -/
theorem conflict_quarantine (reached : Reaches base s) :
    (s.conflict = true → s.batch = none) ∧
    (s.conflict = true → ∀ (α : Type) (script : Script α),
      (∀ e ∈ script.trace s, e.request.takesBack = false) →
      (∀ e ∈ script.trace s, e.step.accepted = false ∧ e.step.session = s) ∧
      (script.run s).session = s) ∧
    ∀ (σ : Type) (host : Host σ) (state : σ), ∀ p ∈ (host.fix s state).passes,
      (∀ before e after, p.exchanges = before ++ e :: after → e.step.session.conflict = true →
        (∀ x ∈ after, x.request.takesBack = false) →
        (∀ x ∈ after, x.step.accepted = false) ∧ p.session = e.step.session) ∧
      (p.session.conflict = true →
        (closeLeftover p.session).1 = p.session ∧ settled p.session = false ∧
        ∀ n, (host.fix s state).outcome = .converged n →
          (host.fix s state).passes.getLast? ≠ some p) := by
  refine ⟨reached.exclusive, ?_, ?_⟩
  · intro raised α script onward
    exact Script.run_of_frozen reached.exclusive raised onward
  · intro σ host state p member
    have linked := fix_linked host s state
    refine ⟨fun before e after => linked.frozen_of_mem member, fun raised => ⟨?_, ?_, ?_⟩⟩
    · rw [closeLeftover_of_conflict (linked.exclusive_of_mem member) raised]
    · simp [settled, raised]
    · intro n converged last
      rw [calm_of_converged converged last] at raised
      cases raised

def demands : Script Unit :=
  .requestAll "insist" [.replace 0 ['c'], .append 0 ['!'], .prepend 0 ['!'], .appendNewline 0,
    .prependNewline 0, .slice 0 0 none, .reindent 0 0 4, .beginBatch, .endBatch]

def contested : Session :=
  let first := (enterPass (.new [['a']]) [['a']]).1
  let fixed := (first.perform "rewrite" (.replace 0 ['b'])).session
  let second := (enterPass fixed [['b']]).1
  (second.perform "restore" (.replace 0 ['a'])).session

def insisting : Host Nat where
  fixable _ := 1
  tokenize dispatches text := ([text], dispatches)
  dispatch
    | 0 => .ask "rewrite" (.replace 0 ['b']) fun _ => .done 1
    | 1 => .ask "restore" (.replace 0 ['a']) fun _ => demands.andThen fun _ => .done 2
    | n => .done n

/-- All demands are refused, and the second pass of the host is followed by another one although
nothing is fixed in it. -/
theorem conflict_quarantine_contested :
    Reaches [['b']] contested ∧ contested.conflict = true ∧
      (demands.trace contested).length = 9 ∧
      (∀ e ∈ demands.trace contested, e.step.accepted = false) ∧
      (demands.run contested).session = contested ∧
      (insisting.fix (.new [['a']]) 0).outcome = .converged 3 ∧
      ∃ p, (insisting.fix (.new [['a']]) 0).passes[1]? = some p ∧ p.session.fixCount = 0 ∧
        (closeLeftover p.session).1 = p.session ∧ settled p.session = false := by
  have reached : Reaches [['b']] contested :=
    ((((Reaches.new _).enter _).perform _ _).enter _).perform _ _
  obtain ⟨-, frozen, -⟩ := conflict_quarantine reached
  obtain ⟨answers, still⟩ := frozen rfl Unit demands (by decide)
  obtain ⟨-, -, driven⟩ := conflict_quarantine (.new [['a']])
  refine ⟨reached, rfl, rfl, fun e member => (answers e member).1, still, rfl, _, rfl, rfl, ?_⟩
  obtain ⟨-, kept⟩ := driven Nat insisting 0 _ (List.mem_of_getElem? (i := 1) rfl)
  obtain ⟨same, unsettled, -⟩ := kept rfl
  exact ⟨same, unsettled⟩

end Host

end Retouch
