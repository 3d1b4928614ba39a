import Retouch.Proofs.Run.Passes
import Retouch.Proofs.Session.Chronicle

/-!
The conflicts of a run. Records pass from one pass to the next, so that all that is said in a run is
one chronicle, and each conflict can be traced to the fixes before it: `fix_conflicts_go_back`. The
conflict of a pass keeps the run from settling, unless the host has it dropped by a rollback:
`converged_drops_conflicts`.
-/

namespace Retouch

variable {σ : Type} {s : Session} {events : List Event} {passes : List (Pass σ)}

def Pass.log (p : Pass σ) : List Notice := p.script.log p.entered

def timeline (passes : List (Pass σ)) : List Event :=
  passes.flatMap fun p => stamp p.entered.pass p.log

/-! ### One chronicle -/

namespace Linked

theorem chronicle (linked : Linked s passes) (given : Chronicle events s) :
    ∃ t, Chronicle (events ++ timeline passes) t := by
  induction linked generalizing events with
  | nil s => exact ⟨s, by simpa [timeline] using given⟩
  | @cons s p rest entered ran _ ih =>
    have entering : Chronicle events p.entered := given.transfer (by rw [entered]; rfl)
    have left := entering.run p.script
    rw [← ran] at left
    obtain ⟨t, whole⟩ := ih (left.transfer (Host.closeLeftover_records p.session))
    exact ⟨t, by simpa [timeline, Pass.log] using whole⟩

end Linked

/-! ### What conflicts go back to -/

theorem Event.mem_of_mem_fixesAt {pos : Nat} {fix : Fix} (member : fix ∈ fixesAt pos events) :
    ∃ source, ⟨fix.pass, .replaced source pos fix.found fix.asked⟩ ∈ events := by
  obtain ⟨⟨pass, notice⟩, listed, told⟩ := List.mem_filterMap.mp member
  cases notice with
  | replaced source q found asked =>
    simp only [fix?] at told
    split at told
    · next here =>
      obtain rfl := Option.some.inj told
      exact ⟨source, here ▸ listed⟩
    · cases told
  | _ => cases told

/-- Every fix of a run belongs to one of its passes and found what that pass had loaded. -/
theorem Linked.loaded_of_mem_fixesAt (linked : Linked s passes) {pos : Nat} {fix : Fix}
    (member : fix ∈ fixesAt pos (timeline passes)) :
    ∃ p ∈ passes, p.entered.pass = fix.pass ∧ p.loaded[pos]? = some fix.found := by
  obtain ⟨source, told⟩ := Event.mem_of_mem_fixesAt member
  obtain ⟨p, listed, stamped⟩ := List.mem_flatMap.mp told
  obtain ⟨notice, said, same⟩ := List.mem_map.mp stamped
  obtain ⟨pass, rfl⟩ := Event.mk.inj same
  exact ⟨p, listed, pass, p.script.log_finds_loaded (linked.landed_of_mem listed) said⟩

namespace Host

/-- An edit is refused as a conflict only if its position was fixed in the pass before and it asks
for what the fix before that one asked for or, if there is none, for what that one found. -/
theorem fix_conflicts_go_back (host : Host σ) (s : Session) (state : σ) :
    let passes := (host.fix s state).passes
    (∀ (i : Nat) p, passes[i]? = some p → p.entered.pass = i + 1) ∧
    (∀ before after pass source pos content k,
      timeline passes = before ++ ⟨pass, .conflict source pos content k⟩ :: after →
      ∃ earlier last, fixesAt pos before = earlier ++ [last] ∧ last.pass + 1 = pass ∧
        (∃ p ∈ passes, p.entered.pass = last.pass ∧ p.loaded[pos]? = some last.found) ∧
        content = (earlier.getLast?.map Fix.asked).getD last.found) ∧
    ∀ before after pass source pos found asked,
      timeline passes = before ++ ⟨pass, .replaced source pos found asked⟩ :: after →
      ¬GoesBack (fixesAt pos before) pass asked := by
  intro passes
  have linked := fix_linked host s state
  obtain ⟨t, chronicle⟩ := linked.chronicle (Chronicle.nil fun _ => rfl)
  rw [List.nil_append] at chronicle
  refine ⟨?_, ?_, ?_⟩
  · intro i p found
    rw [linked.number found]
    exact congrArg (· + 1) (Nat.zero_add i)
  · intro before after pass source pos content k split
    obtain ⟨earlier, last, fixes, next, back⟩ := chronicle.fits before _ after split
    have member : last ∈ fixesAt pos (timeline passes) := by
      rw [split, fixesAt_append, fixes]
      simp
    exact ⟨earlier, last, fixes, next, linked.loaded_of_mem_fixesAt member, back⟩
  · intro before after pass source pos found asked split
    exact chronicle.fits before _ after split

/-- A host that splits the only token, renames the first part, and asks for the split again. -/
def splitting : Host Nat where
  fixable _ := 1
  tokenize dispatches text := (text.map fun c => [c], dispatches)
  dispatch
    | 0 => .ask "split" (.replace 0 ['b', 'c']) fun _ => .done 1
    | 1 => .ask "rename" (.replace 0 ['d']) fun _ => .done 2
    | 2 => .ask "split" (.replace 0 ['b', 'c']) fun _ => .done 3
    | n => .done n

theorem fix_conflicts_go_back_splitting :
    let passes := (splitting.fix (.new [['a']]) 0).passes
    let before := [⟨1, .replaced "split" 0 ['a'] ['b', 'c']⟩, ⟨2, .replaced "rename" 0 ['b'] ['d']⟩]
    timeline passes = before ++ [⟨3, .conflict "split" 0 ['b', 'c'] 2⟩] ∧
    ∃ earlier last, fixesAt 0 before = earlier ++ [last] ∧ last.pass + 1 = 3 ∧
      (∃ p ∈ passes, p.entered.pass = last.pass ∧ p.loaded[0]? = some last.found) ∧
      ['b', 'c'] = (earlier.getLast?.map Fix.asked).getD last.found := by
  intro passes before
  have said : timeline passes = before ++ [⟨3, .conflict "split" 0 ['b', 'c'] 2⟩] := by decide
  obtain ⟨-, conflicts, -⟩ := fix_conflicts_go_back splitting (.new [['a']]) 0
  exact ⟨said, conflicts before [] 3 "split" 0 ['b', 'c'] 2 said⟩

/-- A conflict that undoes nothing: an edit of the third pass is refused, although the only fix of
its position in the second pass found another content there than the edit asks for. -/
theorem conflict_without_return :
    let passes := (splitting.fix (.new [['a']]) 0).passes
    ⟨3, .conflict "split" 0 ['b', 'c'] 2⟩ ∈ timeline passes ∧
    (fixesAt 0 (timeline passes)).filter (fun fix => fix.pass == 2) = [⟨2, ['b'], ['d']⟩] ∧
    passes.map Pass.loaded = [[['a']], [['b'], ['c']], [['d'], ['c']], [['d'], ['c']]] := by
  decide

/-! ### Conflicts and convergence -/

/-- If a run converges, then in its last pass every request that is refused as a conflict is
followed by a rollback; so if the host asks for none, no request of that pass is refused as a
conflict. -/
theorem converged_drops_conflicts (host : Host σ) (s : Session) (state : σ) {n : Nat}
    (converged : (host.fix s state).outcome = .converged n) :
    ∃ earlier last, (host.fix s state).passes = earlier ++ [last] ∧
      ∀ before e after, last.exchanges = before ++ e :: after →
        (∃ notice ∈ e.step.notices, notice.isConflict) →
        ∃ later ∈ after, later.request = .rollback := by
  obtain ⟨earlier, last, split, settles⟩ := fix_last_settled host converged
  refine ⟨earlier, last, split, ?_⟩
  rintro before e after cut ⟨notice, said, conflict⟩
  by_contra kept
  have keeps : ∀ later ∈ after, later.request ≠ .rollback := fun later member dropped =>
    kept ⟨later, member, dropped⟩
  have trace : last.script.trace last.entered = before ++ e :: after := cut
  have raised : e.step.session.conflict = true := by
    have member : e ∈ last.script.trace last.entered := by
      rw [trace]
      exact List.mem_append_right before List.mem_cons_self
    rw [Script.step_of_mem_trace member] at said ⊢
    exact Session.perform_of_isConflict e.source said conflict
  -- The conflict stands to the end of the pass, which therefore does not settle.
  have stands := Script.run_of_raised trace keeps raised
  have linked := fix_linked host s state
  have member : last ∈ (host.fix s state).passes := by simp [split]
  rw [← linked.session_of_mem member,
    ((settled_closeLeftover (linked.exclusive_of_mem member)).mp settles).2] at stands
  cases stands

def retreating : Host Nat where
  fixable _ := 1
  tokenize dispatches text := (text.map fun c => [c], dispatches)
  dispatch dispatches :=
    if dispatches = 0 then .ask "rewrite" (.replace 0 ['b']) fun _ => .done 1
    else .ask "restore" .beginBatch fun _ => .ask "restore" (.replace 0 ['a']) fun _ =>
      .ask "restore" .endBatch fun _ => .ask "restore" .rollback fun _ => .done 2

theorem converged_drops_conflicts_retreating :
    (retreating.fix (.new [['a']]) 0).outcome = .converged 2 ∧
      ∃ last ∈ (retreating.fix (.new [['a']]) 0).passes.getLast?, ∃ before e after,
        last.exchanges = before ++ e :: after ∧ e.request = .endBatch ∧
        (∃ notice ∈ e.step.notices, notice.isConflict) ∧
        ∃ later ∈ after, later.request = .rollback := by
  have converged : (retreating.fix (.new [['a']]) 0).outcome = .converged 2 := by decide
  obtain ⟨earlier, last, split, drops⟩ := converged_drops_conflicts retreating _ 0 converged
  have final : (retreating.fix (.new [['a']]) 0).passes.getLast? = some last := by simp [split]
  obtain rfl := Option.some.inj final
  refine ⟨converged, _, rfl, [_, _], _, [_], rfl, rfl, ?_, drops [_, _] _ [_] rfl ?_⟩
  · decide
  · decide

/-- A run converges although its last pass refuses a batch as a conflict. -/
theorem converged_in_conflict :
    (retreating.fix (.new [['a']]) 0).outcome = .converged 2 ∧
      ∃ p ∈ (retreating.fix (.new [['a']]) 0).passes.getLast?, ∃ e ∈ p.exchanges,
        e.request = .endBatch ∧ e.step.accepted = false ∧ e.step.session.conflict = true ∧
        .conflict "restore" 0 ['a'] 1 ∈ e.step.notices := by
  refine ⟨by decide, _, rfl, ?_⟩
  decide

end Host

end Retouch
