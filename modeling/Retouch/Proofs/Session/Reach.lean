import Retouch.Proofs.Session.Request
import Retouch.Run

/-!
The states a session can come to. `Reaches base s` carries along the token list that the session
was last given, so that what is said of marks can be said against it. A whole run of passes is a
start, then for each pass an entry, the host's requests and perhaps a rollback; `Reaches.fix` shows
that it leads to reachable states only.
-/

namespace Retouch

/-- A session can be in state `s`, and `base` is the token list that it was last opened on, loaded
with, or restarted at. -/
inductive Reaches : List Text → Session → Prop where
  | new (tokens : List Text) : Reaches tokens (.new tokens)
  | limit {base : List Text} {s : Session} (n : Nat) :
      Reaches base s → Reaches base (s.withMaxPasses n)
  | terminator {base : List Text} {s : Session} (text : Text) :
      Reaches base s → Reaches base (s.withTerminator text)
  | perform {base : List Text} {s : Session} (source : String) (request : Request) :
      Reaches base s → Reaches base (s.perform source request).session
  | load {base : List Text} {s : Session} (tokens : List Text) :
      Reaches base s → Reaches tokens (s.load tokens).1
  | restart {base : List Text} {s : Session} : Reaches base s → Reaches s.tokens s.restart.1
  | enter {base : List Text} {s : Session} (tokens : List Text) :
      Reaches base s → Reaches tokens (Host.enterPass s tokens).1

/-- Requests keep a session within landed edits of a fresh one. -/
theorem Session.perform_landed {base : List Text} {s : Session} (source : String) (request : Request)
    (landed : ∃ edits, Landed edits (.new base) s) :
    ∃ edits, Landed edits (.new base) (s.perform source request).session := by
  obtain ⟨edits, landed⟩ := landed
  by_cases reverts : ∃ pos, request = .revert pos
  · obtain ⟨pos, rfl⟩ := reverts
    exact ⟨_, landed.revert source rfl⟩
  · obtain ⟨later, more, _⟩ :=
      (s.perform_steady source (fun pos same => reverts ⟨pos, same⟩)).landed
    exact ⟨_, landed.trans more⟩

namespace Reaches

variable {base : List Text} {s : Session} {σ α : Type}

/-! ### Invariants -/

theorem exclusive (reached : Reaches base s) : s.Exclusive := by
  induction reached with
  | new tokens => exact fun _ => rfl
  | limit n _ ih => exact ih
  | terminator text _ ih => exact ih
  | perform source request _ ih => exact Session.perform_exclusive source request ih
  | load tokens _ _ => exact fun _ => rfl
  | restart _ _ => exact fun _ => rfl
  | enter tokens _ _ => exact fun _ => rfl

theorem maxPasses_le (reached : Reaches base s) : s.maxPasses ≤ Session.passLimit := by
  induction reached with
  | new tokens => exact Nat.le_refl _
  | limit n _ _ => exact Nat.min_le_right n _
  | terminator text _ ih => exact ih
  | @perform base s source request _ ih =>
    have same := congrArg (fun settings => settings.2.1) (s.perform_settings source request)
    exact Nat.le_trans (Nat.le_of_eq same) ih
  | load tokens _ ih => exact ih
  | restart _ ih => exact ih
  | enter tokens _ ih => exact ih

theorem landed (reached : Reaches base s) : ∃ edits, Session.Landed edits (.new base) s := by
  induction reached with
  | new tokens => exact ⟨_, .refl _⟩
  | limit n _ ih =>
    obtain ⟨edits, landed⟩ := ih
    exact ⟨edits, landed.transfer rfl rfl rfl rfl⟩
  | terminator text _ ih =>
    obtain ⟨edits, landed⟩ := ih
    exact ⟨edits, landed.transfer rfl rfl rfl rfl⟩
  | perform source request _ ih => exact Session.perform_landed source request ih
  | load tokens _ _ => exact ⟨_, (Session.Landed.refl _).transfer rfl rfl rfl rfl⟩
  | restart _ _ => exact ⟨_, (Session.Landed.refl _).transfer rfl rfl rfl rfl⟩
  | enter tokens _ _ => exact ⟨_, (Session.Landed.refl _).transfer rfl rfl rfl rfl⟩

/-! ### Runs -/

theorem run (script : Script α) (reached : Reaches base s) : Reaches base (script.run s).session := by
  induction script generalizing s with
  | done result => exact reached
  | look next ih => exact ih _ reached
  | say notice next ih => exact ih reached
  | ask source request next ih => exact ih _ (reached.perform source request)

theorem closeLeftover (reached : Reaches base s) : Reaches base (Host.closeLeftover s).1 := by
  unfold Host.closeLeftover
  split
  · exact reached.perform Host.runSource .rollback
  · exact reached

theorem pass (host : Host σ) (state : σ) (reached : Reaches base s) :
    Reaches (host.pass s state).1.loaded (host.pass s state).2.1 :=
  ((reached.enter _).run _).closeLeftover

def lastLoaded (fallback : List Text) (passes : List (Pass σ)) : List Text :=
  (passes.getLast?.map Pass.loaded).getD fallback

theorem lastLoaded_cons (fallback : List Text) (p : Pass σ) (passes : List (Pass σ)) :
    lastLoaded fallback (p :: passes) = lastLoaded p.loaded passes := by
  cases passes with
  | nil => rfl
  | cons q rest =>
    simp [lastLoaded, List.getLast?_cons]

theorem loop (host : Host σ) (fixable left : Nat) (state : σ) (reached : Reaches base s) :
    Reaches (lastLoaded base (host.loop fixable left s state).passes)
      (host.loop fixable left s state).session := by
  induction left generalizing base s state with
  | zero => exact reached
  | succ left ih =>
    have entered := reached.pass host state
    simp only [Host.loop]
    split
    · exact entered
    · rw [lastLoaded_cons]
      exact ih _ entered

theorem fix (host : Host σ) (state : σ) (reached : Reaches base s) :
    Reaches (lastLoaded s.tokens (host.fix s state).passes) (host.fix s state).session := by
  simp only [Host.fix]
  split
  · exact reached.restart
  · exact reached.restart.loop host _ _ state

end Reaches

end Retouch
