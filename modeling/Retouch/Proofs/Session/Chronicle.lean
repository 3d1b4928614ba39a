import Retouch.Proofs.History
import Retouch.Proofs.Session.Exchange
import Retouch.Proofs.Session.Marks

/-!
Records are memories of what was said. The record of a position is made from the fixes of that
position that the notices tell of: it holds what the latest fix asked for and, as the previous
content, what the fix before it asked for; only the first fix of all leaves what it found. So
whether an edit is refused as a conflict can be read off the events before it.
-/

namespace Retouch

structure Event where
  pass : Nat
  notice : Notice
  deriving DecidableEq, Repr

def Event.fix? (pos : Nat) : Event → Option Fix
  | ⟨pass, .replaced _ q found asked⟩ => if q = pos then some ⟨pass, found, asked⟩ else none
  | _ => none

def fixesAt (pos : Nat) (events : List Event) : List Fix := events.filterMap (Event.fix? pos)

def stamp (pass : Nat) (notices : List Notice) : List Event := notices.map (Event.mk pass)

/-- What the events before it call for in an event: a conflict goes back, and a fix does not. -/
def Event.Fits (before : List Event) : Event → Prop
  | ⟨pass, .conflict _ pos content _⟩ => GoesBack (fixesAt pos before) pass content
  | ⟨pass, .replaced _ pos _ content⟩ => ¬GoesBack (fixesAt pos before) pass content
  | _ => True

variable {s t : Session} {events : List Event} {notices : List Notice} {pos : Nat} {α : Type}

/-! ### Fixes and their record -/

theorem Session.nextRecord_eq (s : Session) (pos : Nat) (current content : Text) :
    s.nextRecord pos current content =
      ⟨((s.history.record? pos).map Record.recent).getD current, content, s.pass⟩ := by
  unfold nextRecord
  cases s.history.record? pos <;> rfl

theorem fixesAt_append (pos : Nat) (events more : List Event) :
    fixesAt pos (events ++ more) = fixesAt pos events ++ fixesAt pos more :=
  List.filterMap_append

theorem fixesAt_plain (plain : ∀ n ∈ notices, n.isVerdict = false) (pos pass : Nat) :
    fixesAt pos (stamp pass notices) = [] := by
  rw [fixesAt, stamp, List.filterMap_map, List.filterMap_eq_nil_iff]
  intro n said
  have other := plain n said
  cases n with
  | replaced source q found asked => cases other
  | _ => rfl

theorem Event.fits_plain {n : Notice} (plain : n.isVerdict = false) (before : List Event)
    (pass : Nat) : Event.Fits before ⟨pass, n⟩ := by
  cases n with
  | conflict source pos content k => cases plain
  | replaced source pos found asked => cases plain
  | _ => trivial

/-! ### Chronicles -/

/-- The events led to the session: its records are those of their fixes, and each event fits the
events before it. -/
structure Chronicle (events : List Event) (s : Session) : Prop where
  records : ∀ pos, s.history.record? pos = recordOf (fixesAt pos events)
  fits : ∀ before event after, events = before ++ event :: after → event.Fits before

namespace Chronicle

theorem nil (empty : ∀ pos, s.history.record? pos = none) : Chronicle [] s :=
  ⟨empty, fun _ _ _ split => by simp at split⟩

theorem bouncesBack_iff (chronicle : Chronicle events s) {content : Text} :
    s.BouncesBack pos content ↔ GoesBack (fixesAt pos events) s.pass content := by
  rw [goesBack_iff, Session.BouncesBack, chronicle.records]

theorem transfer (chronicle : Chronicle events s)
    (records : t.history.records = s.history.records) : Chronicle events t := by
  refine ⟨fun pos => ?_, chronicle.fits⟩
  rw [← chronicle.records pos, History.record?, History.record?, records]

theorem fits_append (chronicle : Chronicle events s) {more : List Event}
    (later : ∀ before event after, more = before ++ event :: after →
      event.Fits (events ++ before)) :
    ∀ before event after, events ++ more = before ++ event :: after → event.Fits before := by
  intro before event after split
  -- The event is among the new ones, or among the old ones with the same events before it.
  rcases List.append_eq_append_iff.mp split with ⟨front, rfl, rest⟩ | ⟨back, rest, tail⟩
  · exact later front event after rest
  · cases back with
    | nil =>
      have here := later [] event after (by simpa using tail.symm)
      simpa [rest] using here
    | cons first back =>
      obtain ⟨rfl, -⟩ := List.cons.inj tail
      exact chronicle.fits before event back rest

theorem quiet (chronicle : Chronicle events s) (pass : Nat)
    (plain : ∀ n ∈ notices, n.isVerdict = false) (records : t.history.records = s.history.records) :
    Chronicle (events ++ stamp pass notices) t := by
  refine ⟨fun pos => ?_, chronicle.fits_append ?_⟩
  · rw [fixesAt_append, fixesAt_plain plain, List.append_nil]
    exact (chronicle.transfer records).records pos
  · intro before event after split
    have member : event ∈ stamp pass notices := by simp [split]
    obtain ⟨n, said, rfl⟩ := List.mem_map.mp member
    exact Event.fits_plain (plain n said) _ _

theorem single (chronicle : Chronicle events s) {event : Event} (fits : event.Fits events)
    (records : ∀ pos, t.history.record? pos = recordOf (fixesAt pos events ++ fixesAt pos [event])) :
    Chronicle (events ++ [event]) t := by
  refine ⟨fun pos => ?_, chronicle.fits_append ?_⟩
  · rw [fixesAt_append]
    exact records pos
  · intro before later after split
    obtain ⟨rfl, rfl, rfl⟩ : before = [] ∧ later = event ∧ after = [] := by
      cases before with
      | nil => simp_all
      | cons first before => simp at split
    simpa using fits

theorem turn (chronicle : Chronicle events s) (turn : Session.Turn s notices t) :
    Chronicle (events ++ stamp s.pass notices) t := by
  cases turn with
  | @land pos content source lands =>
    refine chronicle.single ?_ fun q => ?_
    · exact fun back => lands.2 (chronicle.bouncesBack_iff.mpr back)
    · rw [Session.land_record?]
      by_cases here : q = pos
      · -- The record takes over what the last fix asked for, and what is found only at the first.
        subst here
        simp [fixesAt, Event.fix?, recordOf_concat, Session.nextRecord_eq, chronicle.records q,
          recent_recordOf]
      · simpa [fixesAt, Event.fix?, here, Ne.symm here] using chronicle.records q
  | clash source free bounces =>
    refine chronicle.single (chronicle.bouncesBack_iff.mp bounces) fun q => ?_
    show s.history.record? q = recordOf (fixesAt q events ++ [])
    rw [List.append_nil]
    exact chronicle.records q
  | revert source pos =>
    obtain ⟨_, _, same⟩ := Session.revert_eq s source pos
    exact chronicle.quiet s.pass (Session.revert_plain s source pos) (by rw [same])
  | aside batch plain => exact chronicle.quiet s.pass plain rfl

theorem turns (chronicle : Chronicle events s) (turns : Session.Turns s notices t) :
    Chronicle (events ++ stamp s.pass notices) t := by
  induction turns generalizing events with
  | nil s => simpa [stamp] using chronicle
  | cons turn _ ih =>
    have later := ih (chronicle.turn turn)
    rw [turn.pass_eq] at later
    simpa [stamp] using later

theorem perform (chronicle : Chronicle events s) (source : String) (request : Request) :
    Chronicle (events ++ stamp s.pass (s.perform source request).notices)
      (s.perform source request).session := by
  by_cases keeps : request = .rollback
  · subst keeps
    exact chronicle.quiet s.pass (Session.rollback_plain s source) rfl
  · exact chronicle.turns (s.perform_turns source keeps)

end Chronicle

/-! ### What fixes find -/

namespace Session

variable {found asked : Text} {loaded : List Text} {source : String}

theorem Turn.finds_loaded (turn : Turn s notices t) (landed : ∃ edits, Landed edits (.new loaded) s) :
    (∃ edits, Landed edits (.new loaded) t) ∧
      (.replaced source pos found asked ∈ notices → loaded[pos]? = some found) := by
  obtain ⟨edits, landed⟩ := landed
  cases turn with
  | @land q content source lands =>
    refine ⟨⟨_, landed.trans (Landed.of_land lands.1)⟩, fun said => ?_⟩
    obtain ⟨-, rfl, rfl, -⟩ := Notice.replaced.inj (List.mem_singleton.mp said)
    obtain ⟨inside, unmarked⟩ := Session.free_iff.mp lands.1
    rw [← landed.tokens_of_unmarked unmarked, List.getElem?_eq_getElem inside]
    rfl
  | clash source free bounces =>
    exact ⟨⟨edits, landed.transfer rfl rfl rfl rfl⟩, fun said => by simp at said⟩
  | revert source q =>
    refine ⟨⟨_, landed.revert source rfl⟩, fun said => ?_⟩
    cases revert_plain s source q _ said
  | aside batch plain =>
    refine ⟨⟨edits, landed.transfer rfl rfl rfl rfl⟩, fun said => ?_⟩
    cases plain _ said

theorem Turns.finds_loaded (turns : Turns s notices t) (landed : ∃ edits, Landed edits (.new loaded) s)
    (said : .replaced source pos found asked ∈ notices) : loaded[pos]? = some found := by
  induction turns with
  | nil s => simp at said
  | cons turn _ ih =>
    obtain ⟨next, finds⟩ := turn.finds_loaded landed
    rcases List.mem_append.mp said with here | later
    · exact finds here
    · exact ih next later

/-- Every fix finds what was loaded, since it needs an unmarked position. -/
theorem perform_finds_loaded (landed : ∃ edits, Landed edits (.new loaded) s) {name : String}
    {request : Request} (said : .replaced source pos found asked ∈ (s.perform name request).notices) :
    loaded[pos]? = some found := by
  have keeps : request ≠ .rollback := by
    rintro rfl
    cases rollback_plain s name _ said
  exact (s.perform_turns name keeps).finds_loaded landed said

end Session

/-! ### Scripts -/

def Script.log (script : Script α) (s : Session) : List Notice :=
  (script.trace s).flatMap fun e => e.step.notices

theorem Chronicle.run (chronicle : Chronicle events s) (script : Script α) :
    Chronicle (events ++ stamp s.pass (script.log s)) (script.run s).session := by
  induction script generalizing s events with
  | done result => simpa [Script.log, Script.trace, Script.run, stamp] using chronicle
  | look next ih => exact ih _ chronicle
  | say notice next ih => exact ih chronicle
  | ask source request next ih =>
    have later := ih (s.perform source request).accepted (chronicle.perform source request)
    have pass : (s.perform source request).session.pass = s.pass :=
      congrArg Prod.fst (s.perform_settings source request)
    rw [pass] at later
    simpa [Script.log, Script.trace, Script.run, stamp] using later

theorem Script.log_finds_loaded (script : Script α) {loaded : List Text}
    (landed : ∃ edits, Session.Landed edits (.new loaded) s) {source : String} {found asked : Text}
    (said : .replaced source pos found asked ∈ script.log s) : loaded[pos]? = some found := by
  induction script generalizing s with
  | done result => simp [log, trace] at said
  | look next ih => exact ih _ landed said
  | say notice next ih => exact ih landed said
  | ask name request next ih =>
    rcases List.mem_append.mp said with here | later
    · exact Session.perform_finds_loaded landed here
    · exact ih _ (Session.perform_landed name request landed) later

end Retouch
