import Retouch.Session.Edits

/-!
Editing programs: what a host does with the token editor it is handed. A script asks an editor for
one thing after another and decides what comes next from the answers, so "every sequence of requests
a client can make" is a quantifier over scripts. Running a script yields its result, the session it
leaves, and the notices; its trace lists the exchanges of the same run.
-/

namespace Retouch

inductive Request where
  | replace (pos : Nat) (content : Text)
  | revert (pos : Nat)
  | beginBatch
  | endBatch
  /-- Drop the open batch; always accepted. -/
  | rollback
  | append (pos : Nat) (text : Text)
  | prepend (pos : Nat) (text : Text)
  | appendNewline (pos : Nat)
  | prependNewline (pos : Nat)
  | slice (pos start : Nat) (len : Option Nat)
  | reindent (first last : Nat) (change : Int)
  deriving DecidableEq, Repr

def Session.perform (s : Session) (source : String) : Request → Step
  | .replace pos content => s.replace source pos content
  | .revert pos => s.revert source pos
  | .beginBatch => s.beginBatch source
  | .endBatch => s.endBatch source
  | .rollback =>
    let done := s.rollback source
    ⟨true, done.1, done.2⟩
  | .append pos text => s.append source pos text
  | .prepend pos text => s.prepend source pos text
  | .appendNewline pos => s.appendNewline source pos
  | .prependNewline pos => s.prependNewline source pos
  | .slice pos start len => s.slice source pos start len
  | .reindent first last change => s.reindent source first last change

/-- What a client can see of a session. -/
structure View where
  content : Nat → Option Text
  count : Nat
  terminator : Text
  fixCount : Nat
  batchOpen : Bool
  conflict : Bool

def Session.view (s : Session) : View where
  content := s.content
  count := s.tokens.length
  terminator := s.terminator
  fixCount := s.fixCount
  batchOpen := s.batchOpen
  conflict := s.conflict

def View.contents (v : View) : List (Option Text) := (List.range v.count).map v.content

/-- A program over an editor. -/
inductive Script (α : Type) where
  | done (result : α)
  | look (next : View → Script α)
  /-- Make a request in the name of `source`. -/
  | ask (source : String) (request : Request) (next : Bool → Script α)
  | say (notice : Notice) (next : Script α)

namespace Script

variable {α β : Type}

def andThen : Script α → (α → Script β) → Script β
  | done a, f => f a
  | look next, f => look fun v => (next v).andThen f
  | ask source request next, f => ask source request fun answer => (next answer).andThen f
  | say notice next, f => say notice (next.andThen f)

instance : Monad Script where
  pure := done
  bind := andThen

def request (source : String) (r : Request) : Script Bool := ask source r done

def view : Script View := look done

def forEach {γ : Type} (f : γ → Script Unit) : List γ → Script Unit
  | [] => done ()
  | x :: rest => (f x).andThen fun _ => forEach f rest

def requestAll (source : String) (rs : List Request) : Script Unit :=
  forEach (fun r => (request source r).andThen fun _ => done ()) rs

/-- Empty the given positions as one batch, if a batch can be opened. -/
def clearAll (source : String) (positions : List Nat) : Script Unit :=
  (request source .beginBatch).andThen fun opened =>
    if opened then
      requestAll source (positions.map (fun pos => Request.replace pos []) ++ [.endBatch])
    else done ()

structure Effect (α : Type) where
  result : α
  session : Session
  notices : List Notice

def run : Script α → Session → Effect α
  | done a, s => ⟨a, s, []⟩
  | look next, s => (next s.view).run s
  | say notice next, s =>
    let tail := next.run s
    { tail with notices := notice :: tail.notices }
  | ask source request next, s =>
    let step := s.perform source request
    let tail := (next step.accepted).run step.session
    { tail with notices := step.notices ++ tail.notices }

/-- A request, the session it was made to, and what came of it. -/
structure Exchange where
  source : String
  request : Request
  before : Session
  step : Step

/-- The exchanges of a script's run on a session, in order. -/
def trace : Script α → Session → List Exchange
  | done _, _ => []
  | look next, s => (next s.view).trace s
  | say _ next, s => next.trace s
  | ask source request next, s =>
    let step := s.perform source request
    ⟨source, request, s, step⟩ :: (next step.accepted).trace step.session

end Script

end Retouch
