import Retouch.Proofs.Session.Atomicity
import Retouch.Proofs.Session.Exchange

/-!
An open batch as a plain list of tokens. Edits that wait in a batch may concern a position any
number of times, each building on what the editor shows; what it shows is what a plain list holds
after the same edits, and committing the batch puts that list in place or changes nothing. The
invariant is `Overlaid`, with one lemma for a request and one for a script; `batch_refines_writes`
is the result.
-/

namespace Retouch

variable {α : Type}

namespace Request

def target? : Request → Option Nat
  | replace pos _ | append pos _ | prepend pos _ | appendNewline pos | prependNewline pos
  | slice pos _ _ => some pos
  | _ => none

/-- What a request for one edit makes of a content, where lines end in `terminator`. -/
def rewrite (terminator : Text) : Request → Text → Text
  | replace _ content, _ => content
  | append _ text, current => current ++ text
  | prepend _ text, current => text ++ current
  | appendNewline _, current => current ++ terminator
  | prependNewline _, current => terminator ++ current
  | slice _ start len, current =>
    match len with
    | some n => (current.drop start).take n
    | none => current.drop start
  | _, current => current

def writeTo (terminator : Text) (tokens : List Text) (request : Request) : List Text :=
  match request.target? with
  | some pos => tokens.modify pos (request.rewrite terminator)
  | none => tokens

def writeAll (terminator : Text) (requests : List Request) (tokens : List Text) : List Text :=
  requests.foldl (writeTo terminator) tokens

variable {terminator : Text} {tokens : List Text} {requests : List Request} {request : Request}
  {pos : Nat}

theorem writeAll_concat (terminator : Text) (requests : List Request) (request : Request)
    (tokens : List Text) : writeAll terminator (requests ++ [request]) tokens =
      writeTo terminator (writeAll terminator requests tokens) request := by
  simp [writeAll]

theorem getElem?_writeTo (target : request.target? = some pos) (q : Nat) :
    (writeTo terminator tokens request)[q]? =
      if q = pos then tokens[q]?.map (request.rewrite terminator) else tokens[q]? := by
  rw [writeTo, target]
  by_cases here : q = pos
  · simp [here]
  · simp [here, Ne.symm here]

theorem length_writeAll (terminator : Text) (requests : List Request) (tokens : List Text) :
    (writeAll terminator requests tokens).length = tokens.length := by
  induction requests generalizing tokens with
  | nil => rfl
  | cons request rest ih =>
    have same : (writeTo terminator tokens request).length = tokens.length := by
      unfold writeTo
      split
      · exact List.length_modify ..
      · rfl
    exact (ih _).trans same

end Request

namespace Session

variable {s t : Session} {pos : Nat} {batch : Batch} {edits : List Request}

/-! ### One edit -/

theorem replace_of_open (opened : s.batch = some batch) (calm : s.conflict = false)
    (source : String) (pos : Nat) (content : Text) :
    s.replace source pos content =
      ⟨true, { s with batch := some (batch.insert pos content) }, [.buffered source pos content]⟩ := by
  simp [replace, opened, calm]

theorem modify_of_open (opened : s.batch = some batch) (calm : s.conflict = false)
    {current : Text} (read : s.content pos = some current) (source : String) (f : Text → Text) :
    s.modify source pos f = ⟨true, { s with batch := some (batch.insert pos (f current)) },
      [.buffered source pos (f current)]⟩ := by
  rw [modify, read]
  exact replace_of_open opened calm source pos (f current)

/-- Any request for one edit but a replacement rewrites what the editor shows. -/
theorem perform_eq_modify {request : Request} (target : request.target? = some pos)
    (other : ∀ content, request ≠ .replace pos content) (s : Session) (source : String) :
    s.perform source request = s.modify source pos (request.rewrite s.terminator) := by
  cases request with
  | replace q content =>
    obtain rfl := Option.some.inj target
    exact (other content rfl).elim
  | append q text | prepend q text =>
    obtain rfl := Option.some.inj target
    rfl
  | appendNewline q | prependNewline q =>
    obtain rfl := Option.some.inj target
    rfl
  | slice q start len =>
    obtain rfl := Option.some.inj target
    rfl
  | _ => cases target

theorem perform_of_target (opened : s.batch = some batch) (calm : s.conflict = false)
    {request : Request} (target : request.target? = some pos) {current : Text}
    (read : s.content pos = some current) (source : String) :
    ∃ notices, s.perform source request =
      ⟨true, { s with batch := some (batch.insert pos (request.rewrite s.terminator current)) },
        notices⟩ := by
  by_cases replaces : ∃ content, request = .replace pos content
  · obtain ⟨content, rfl⟩ := replaces
    exact ⟨_, replace_of_open opened calm source pos content⟩
  · rw [perform_eq_modify target fun content same => replaces ⟨content, same⟩]
    exact ⟨_, modify_of_open opened calm read source _⟩

/-! ### Edits one after another -/

/-- `t` is `s` with a batch that holds the positions of the edits and no others, and through which
the tokens look as the edits leave a plain list. -/
structure Overlaid (s : Session) (edits : List Request) (t : Session) : Prop where
  waits : ∃ batch, t = { s with batch := some batch } ∧
    ∀ pos, (batch.get? pos).isSome ↔ ∃ request ∈ edits, request.target? = some pos
  content : ∀ pos, t.content pos = (Request.writeAll s.terminator edits s.tokens)[pos]?

namespace Overlaid

theorem opened (s : Session) : Overlaid s [] { s with batch := some ∅ } := by
  refine ⟨⟨∅, rfl, fun pos => ?_⟩, fun pos => rfl⟩
  have absent : (∅ : Batch).get? pos = none := rfl
  simp [absent]

theorem perform (overlaid : Overlaid s edits t) (calm : s.conflict = false) {request : Request}
    (inside : ∃ pos < s.tokens.length, request.target? = some pos) (source : String) :
    (t.perform source request).accepted = true ∧
      Overlaid s (edits ++ [request]) (t.perform source request).session := by
  obtain ⟨⟨batch, rfl, held⟩, shown⟩ := overlaid
  obtain ⟨pos, inside, target⟩ := inside
  obtain ⟨current, found⟩ :
      ∃ current, (Request.writeAll s.terminator edits s.tokens)[pos]? = some current := by
    rw [← Request.length_writeAll s.terminator edits] at inside
    exact ⟨_, List.getElem?_eq_getElem inside⟩
  obtain ⟨notices, performed⟩ := perform_of_target (s := { s with batch := some batch }) rfl calm
    target ((shown pos).trans found) source
  rw [performed]
  refine ⟨rfl, ⟨_, rfl, fun q => ?_⟩, fun q => ?_⟩
  · rw [Slots.get?_insert]
    by_cases here : q = pos
    · simp [here, target]
    · simp [here, target, held q, Ne.symm here, or_and_right, exists_or]
  · rw [Request.writeAll_concat, Request.getElem?_writeTo target, ← shown q]
    by_cases here : q = pos
    · subst here
      rw [if_pos rfl, shown q, found]
      simp [Session.content, Slots.get?_insert]
    · simp [Session.content, Slots.get?_insert, here]

/-- A script that asks for edits in range and nothing else has them all accepted and laid over each
other. -/
theorem run {script : Script α} (overlaid : Overlaid s edits t) (calm : s.conflict = false)
    (inside : ∀ e ∈ script.trace t, ∃ pos < s.tokens.length, e.request.target? = some pos) :
    (∀ before e after, script.trace t = before ++ e :: after → e.step.accepted = true ∧
      Overlaid s (edits ++ (before ++ [e]).map Script.Exchange.request) e.step.session) ∧
    Overlaid s (edits ++ (script.trace t).map Script.Exchange.request) (script.run t).session := by
  induction script generalizing t edits with
  | done result =>
    refine ⟨?_, ?_⟩
    · intro before e after split
      simp [Script.trace] at split
    · simpa [Script.trace, Script.run] using overlaid
  | look next ih => exact ih _ overlaid inside
  | say notice next ih => exact ih overlaid inside
  | ask source request next ih =>
    obtain ⟨first, others⟩ := List.forall_mem_cons.mp inside
    obtain ⟨accepted, laid⟩ := overlaid.perform calm first source
    obtain ⟨steps, ends⟩ := ih _ laid others
    refine ⟨?_, ?_⟩
    · intro before e after split
      cases before with
      | nil =>
        obtain ⟨rfl, -⟩ := List.cons.inj split
        exact ⟨accepted, laid⟩
      | cons held before =>
        obtain ⟨rfl, later⟩ := List.cons.inj split
        simpa using steps before e after later
    · simpa [Script.trace, Script.run] using ends

/-- The batch is committed iff each position it holds can take what a plain list has there. -/
theorem endBatch_accepted_iff (overlaid : Overlaid s edits t) (calm : s.conflict = false)
    (source : String) :
    (t.endBatch source).accepted = true ↔ ∀ request ∈ edits, ∀ pos content,
      request.target? = some pos →
      (Request.writeAll s.terminator edits s.tokens)[pos]? = some content → s.Lands pos content := by
  obtain ⟨⟨batch, rfl, held⟩, shown⟩ := overlaid
  rw [Session.endBatch_accepted_iff (s := { s with batch := some batch }) source rfl calm, Prod.forall]
  simp only [Slots.mem_entries_iff, ← shown]
  constructor
  · intro lands request member pos content target seen
    obtain ⟨waiting, found⟩ := Option.isSome_iff_exists.mp ((held pos).mpr ⟨request, member, target⟩)
    obtain rfl : waiting = content := by simpa [Session.content, found] using seen
    exact lands pos waiting found
  · intro lands pos content found
    obtain ⟨request, member, target⟩ := (held pos).mp (by simp [found])
    exact lands request member pos content target (by simp [Session.content, found])

theorem endBatch_tokens (overlaid : Overlaid s edits t) (calm : s.conflict = false)
    (source : String) :
    (t.endBatch source).session.tokens =
      if (t.endBatch source).accepted then Request.writeAll s.terminator edits s.tokens
      else s.tokens := by
  obtain ⟨⟨batch, rfl, -⟩, shown⟩ := overlaid
  have landed := endBatch_landed (s := { s with batch := some batch }) source rfl calm
  refine List.ext_getElem? fun pos => (landed.tokens pos).trans ?_
  cases (endBatch { s with batch := some batch } source).accepted with
  | true => exact shown pos
  | false => rfl

end Overlaid

/-- In a batch every edit in range is accepted, and the editor shows what a plain list holds after
the same edits. In the end the tokens become that list, iff each edited position can take what the
list has there. -/
theorem batch_refines_writes (calm : s.conflict = false) (idle : s.batch = none)
    (opener closer : String) (script : Script α)
    (inside : ∀ e ∈ script.trace (s.beginBatch opener).session,
      ∃ pos < s.tokens.length, e.request.target? = some pos) :
    let opened := s.beginBatch opener
    let exchanges := script.trace opened.session
    let closed := (script.run opened.session).session.endBatch closer
    let plain := fun made : List Script.Exchange =>
      Request.writeAll s.terminator (made.map Script.Exchange.request) s.tokens
    opened.accepted = true ∧
    (∀ before e after, exchanges = before ++ e :: after →
      e.step.accepted = true ∧
      (∀ pos, e.step.session.content pos = (plain (before ++ [e]))[pos]?) ∧
      e.step.session.tokens = s.tokens ∧ e.step.session.history = s.history) ∧
    (closed.accepted = true ∧ closed.session.tokens = plain exchanges ∨
      closed.accepted = false ∧ closed.session.tokens = s.tokens) ∧
    (closed.accepted = true ↔ ∀ e ∈ exchanges, ∀ pos content, e.request.target? = some pos →
      (plain exchanges)[pos]? = some content → s.Lands pos content) := by
  intro opened exchanges closed plain
  have begun := beginBatch_of_idle opener idle calm
  have start : Overlaid s [] opened.session := by
    rw [show opened = _ from begun]
    exact Overlaid.opened s
  obtain ⟨steps, ends⟩ := start.run calm inside
  refine ⟨by rw [show opened = _ from begun], ?_, ?_, ?_⟩
  · intro before e after split
    obtain ⟨accepted, laid⟩ := steps before e after split
    obtain ⟨batch, same, -⟩ := laid.waits
    refine ⟨accepted, laid.content, ?_, ?_⟩
    · rw [same]
    · rw [same]
  · have tokens := ends.endBatch_tokens calm closer
    cases answer : closed.accepted with
    | true => exact Or.inl ⟨rfl, by rw [tokens, if_pos (by exact answer)]; rfl⟩
    | false =>
      exact Or.inr ⟨rfl, by rw [tokens, if_neg (by exact ne_true_of_eq_false answer)]⟩
  · rw [ends.endBatch_accepted_iff calm closer]
    exact List.forall_mem_map

def drafting : Script Unit :=
  .ask "draft" (.append 0 ['x']) fun _ => .look fun view =>
    .ask "draft" (.prepend 0 ((view.content 0).getD [])) fun _ =>
      .requestAll "draft" [.slice 0 1 (some 3), .replace 1 [], .appendNewline 1]

def drafted (s : Session) : Step :=
  (drafting.run (s.beginBatch "draft").session).session.endBatch "draft"

/-- The edits land on fresh tokens, and where the second token is fixed already none of them
does. -/
theorem batch_refines_writes_drafting :
    let fresh := Session.new [['a'], ['b'], ['c']]
    let fixed := (fresh.perform "host" (.replace 1 ['d'])).session
    (∀ e ∈ drafting.trace (fresh.beginBatch "draft").session, e.step.accepted = true) ∧
      (drafted fresh).accepted = true ∧
      (drafted fresh).session.tokens = [['x', 'a', 'x'], ['\n'], ['c']] ∧
      (drafted fixed).accepted = false ∧
      (drafted fixed).session.tokens = [['a'], ['d'], ['c']] := by
  intro fresh fixed
  obtain ⟨-, steps, lands, -⟩ :=
    batch_refines_writes (s := fresh) rfl rfl "draft" "draft" drafting (by decide)
  obtain ⟨-, -, stays, -⟩ :=
    batch_refines_writes (s := fixed) rfl rfl "draft" "draft" drafting (by decide)
  unfold drafted
  refine ⟨?_, by decide, ?_, by decide, ?_⟩
  · intro e member
    obtain ⟨before, after, split⟩ := List.append_of_mem member
    exact (steps before e after split).1
  · rcases lands with ⟨-, tokens⟩ | ⟨refused, -⟩
    · rw [tokens]
      decide
    · exact absurd refused (by decide)
  · rcases stays with ⟨accepted, -⟩ | ⟨-, tokens⟩
    · exact absurd accepted (by decide)
    · rw [tokens]
      decide

end Session

end Retouch
