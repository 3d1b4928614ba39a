import Retouch.Proofs.Session.Batch
import Retouch.Script

/-!
What a request can do. A revert takes back one landed edit. Every other request lands edits at free
positions, none while a batch stays open, keeps the session's settings, and never lets a conflict
and an open batch stand together. `perform_steady` says so once for all requests.
-/

namespace Retouch.Session

variable {s t u : Session}

/-- A conflict and an open batch do not stand together. -/
def Exclusive (s : Session) : Prop := s.conflict = true → s.batch = none

theorem Exclusive.calm {batch : Slots Text} (exclusive : s.Exclusive)
    (opened : s.batch = some batch) : s.conflict = false := by
  by_contra raised
  have idle := exclusive (eq_true_of_ne_false raised)
  rw [opened] at idle
  cases idle

def settings (s : Session) : Nat × Nat × Text × Text :=
  (s.pass, s.maxPasses, s.terminator, s.initial)

structure Steady (s t : Session) : Prop where
  settings : t.settings = s.settings
  exclusive : s.Exclusive → t.Exclusive
  landed : ∃ edits, Landed edits s t ∧ (t.batch.isSome → ∀ pos, edits pos = none)

namespace Steady

theorem refl (s : Session) : Steady s s :=
  ⟨rfl, id, _, Landed.refl s, fun _ _ => rfl⟩

theorem of_flags {batch : Option Batch} {conflict : Bool}
    (exclusive : s.Exclusive → conflict = true → batch = none) :
    Steady s { s with batch := batch, conflict := conflict } :=
  ⟨rfl, exclusive, _, (Landed.refl s).transfer rfl rfl rfl rfl, fun _ _ => rfl⟩

theorem of_buffer (batch : Batch) (calm : s.conflict = false) :
    Steady s { s with batch := some batch } := by
  have steady : Steady s { s with batch := some batch, conflict := s.conflict } :=
    of_flags (fun _ raised => by simp [calm] at raised)
  exact steady

theorem trans (first : Steady s t) (second : Steady t u) (opened : t.batch.isSome) :
    Steady s u := by
  obtain ⟨before, landed, idle⟩ := first.landed
  obtain ⟨edits, later, last⟩ := second.landed
  refine ⟨second.settings.trans first.settings, fun h => second.exclusive (first.exclusive h),
    edits, ?_, last⟩
  apply (landed.trans later).congr
  intro pos
  simp [idle opened pos]

end Steady

theorem apply_steady (source : String) (pos : Nat) (content : Text) (idle : s.batch = none) :
    Steady s (s.apply source pos content).session := by
  by_cases lands : s.Lands pos content
  · rw [(apply_of_lands source lands).2]
    refine ⟨rfl, id, _, Landed.of_land lands.1, ?_⟩
    intro opened
    have opened : s.batch.isSome := opened
    simp [idle] at opened
  · rw [(apply_of_not_lands source lands).2, raise]
    have steady : Steady s { s with batch := s.batch, conflict := s.conflict || decide (s.Free pos) } :=
      Steady.of_flags (fun _ _ => idle)
    exact steady

theorem replace_steady (s : Session) (source : String) (pos : Nat) (content : Text) :
    Steady s (s.replace source pos content).session := by
  unfold replace
  by_cases raised : s.conflict = true
  · rw [if_pos raised]
    exact Steady.refl s
  · rw [if_neg raised]
    cases opened : s.batch with
    | some batch => exact Steady.of_buffer _ (eq_false_of_ne_true raised)
    | none => exact apply_steady source pos content opened

theorem modify_steady (s : Session) (source : String) (pos : Nat) (f : Text → Text) :
    Steady s (s.modify source pos f).session := by
  unfold modify
  cases s.content pos with
  | none => exact Steady.refl s
  | some current => exact replace_steady s source pos (f current)

theorem beginBatch_steady (s : Session) (source : String) :
    Steady s (s.beginBatch source).session := by
  unfold beginBatch
  by_cases raised : s.conflict = true
  · rw [if_pos raised]
    exact Steady.refl s
  · rw [if_neg raised]
    by_cases opened : s.batchOpen = true
    · rw [if_pos opened]
      exact Steady.refl s
    · rw [if_neg opened]
      exact Steady.of_buffer _ (eq_false_of_ne_true raised)

theorem beginBatch_isSome {source : String} (accepted : (s.beginBatch source).accepted = true) :
    (s.beginBatch source).session.batch.isSome := by
  unfold beginBatch at accepted ⊢
  cases raised : s.conflict with
  | true => simp [raised] at accepted
  | false =>
    cases opened : s.batchOpen with
    | true => simp [raised, opened] at accepted
    | false => simp

theorem closed_steady (s : Session) : Steady s s.closed := by
  have steady : Steady s { s with batch := none, conflict := s.conflict } :=
    Steady.of_flags (fun _ _ => rfl)
  exact steady

theorem endBatch_steady (s : Session) (source : String) :
    Steady s (s.endBatch source).session := by
  cases opened : s.batch with
  | none =>
    have same : (s.endBatch source).session = s := by simp [endBatch, opened]
    rw [same]
    exact Steady.refl s
  | some batch =>
    cases calm : s.conflict with
    | true =>
      rw [(endBatch_of_conflict source opened calm).2]
      exact closed_steady s
    | false =>
      have shut := endBatch_batch s source
      rcases endBatch_cases source opened calm with
        ⟨_, _, landed, session⟩ | ⟨_, held, _, _, _, _, _, landed, _, _, session⟩
      · obtain ⟨_, _, same⟩ := landAll_eq s.closed batch.entries
        refine ⟨?_, fun _ _ => shut, _, landed, ?_⟩
        · rw [session, same]
          rfl
        · simp [shut]
      · refine ⟨?_, fun _ _ => shut, _, landed, fun _ _ => rfl⟩
        rw [session]
        rfl

theorem rollback_steady (s : Session) (source : String) : Steady s (s.rollback source).1 :=
  Steady.of_flags (fun _ _ => rfl)

theorem replace_isSome (source : String) (pos : Nat) (content : Text) (opened : s.batch.isSome) :
    (s.replace source pos content).session.batch.isSome := by
  obtain ⟨batch, present⟩ := Option.isSome_iff_exists.mp opened
  unfold replace
  cases s.conflict with
  | true => exact opened
  | false => simp [present]

theorem replaceAll_steady (source : String) (edits : List (Nat × Text)) (s : Session)
    (opened : s.batch.isSome) :
    Steady s (replaceAll source edits s).1 ∧ (replaceAll source edits s).1.batch.isSome := by
  induction edits generalizing s with
  | nil => exact ⟨Steady.refl s, opened⟩
  | cons e rest ih =>
    obtain ⟨pos, content⟩ := e
    have still := replace_isSome source pos content opened
    obtain ⟨steady, last⟩ := ih (s.replace source pos content).session still
    exact ⟨(replace_steady s source pos content).trans steady still, last⟩

theorem reindent_steady (s : Session) (source : String) (first last : Nat) (change : Int) :
    Steady s (s.reindent source first last change).session := by
  unfold reindent
  cases opened : s.batchOpen with
  | true => exact (replaceAll_steady source _ s opened).1
  | false =>
    simp only [Bool.false_eq_true, if_false]
    cases accepted : (s.beginBatch source).accepted with
    | false => exact beginBatch_steady s source
    | true =>
      have begun := beginBatch_isSome accepted
      obtain ⟨steady, still⟩ := replaceAll_steady source
        ((s.range first last).filterMap (s.shiftAt change)) (s.beginBatch source).session begun
      exact ((beginBatch_steady s source).trans steady begun).trans (endBatch_steady _ source) still

theorem perform_steady (s : Session) (source : String) {request : Request}
    (keeps : ∀ pos, request ≠ .revert pos) : Steady s (s.perform source request).session := by
  cases request with
  | revert pos => exact (keeps pos rfl).elim
  | replace pos content => exact replace_steady s source pos content
  | beginBatch => exact beginBatch_steady s source
  | endBatch => exact endBatch_steady s source
  | rollback => exact rollback_steady s source
  | append pos text => exact modify_steady s source pos _
  | prepend pos text => exact modify_steady s source pos _
  | appendNewline pos => exact modify_steady s source pos _
  | prependNewline pos => exact modify_steady s source pos _
  | slice pos start len => exact modify_steady s source pos _
  | reindent first last change => exact reindent_steady s source first last change

/-! ### What reverts share with them -/

theorem perform_settings (s : Session) (source : String) (request : Request) :
    (s.perform source request).session.settings = s.settings := by
  by_cases reverts : ∃ pos, request = .revert pos
  · obtain ⟨pos, rfl⟩ := reverts
    obtain ⟨_, _, same⟩ := revert_eq s source pos
    simp only [perform, same]
    rfl
  · exact (perform_steady s source (fun pos same => reverts ⟨pos, same⟩)).settings

theorem perform_exclusive (source : String) (request : Request) (exclusive : s.Exclusive) :
    (s.perform source request).session.Exclusive := by
  by_cases reverts : ∃ pos, request = .revert pos
  · obtain ⟨pos, rfl⟩ := reverts
    obtain ⟨_, _, same⟩ := revert_eq s source pos
    simp only [perform, same]
    exact exclusive
  · exact (perform_steady s source (fun pos same => reverts ⟨pos, same⟩)).exclusive exclusive

end Retouch.Session
