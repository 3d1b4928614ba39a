import Retouch.Config
import Retouch.Run

/-!
The sniff host: it checks the tokens of the last text it saw and, when dispatched, fixes every
violation it finds, rule by rule.
-/

namespace Retouch

/-- The sniff host: the rules to run and the tokens they look at. -/
structure Linter where
  rules : List Rule
  tokens : List Text

structure Report where
  code : String
  violation : Violation
  deriving DecidableEq, Repr

namespace Linter

def ofText (text : Text) (config : Config) : Linter := ⟨config.rules, Text.segment text⟩

def codes (l : Linter) : List String := l.rules.map Rule.code

def check (l : Linter) : List Report :=
  l.rules.flatMap fun rule => (rule.check l.tokens).map (Report.mk rule.code)

/-- Announce a violation, then mend it. -/
def mend (tokens : List Text) (rule : Rule) (v : Violation) : Script Unit :=
  .say (.violation rule.code v.line v.message) (rule.fix tokens v.pos)

/-- Mend every violation of the tokens, rule by rule. -/
def mendAll (l : Linter) : Script Unit :=
  .forEach (fun rule => .forEach (mend l.tokens rule) (rule.check l.tokens)) l.rules

def host : Host Linter where
  fixable l := l.check.length
  tokenize l text := (Text.segment text, { l with tokens := Text.segment text })
  dispatch l := l.mendAll.andThen fun _ => .done l

/-- A session over the linter's tokens under the given settings. -/
def session (l : Linter) (config : Config) : Session :=
  let s := (Session.new l.tokens).withMaxPasses config.maxPasses
  match config.terminator with
  | none => s
  | some t => s.withTerminator t.text

def fixText (text : Text) (config : Config) : Run Linter :=
  let l := ofText text config
  host.fix (l.session config) l

end Linter

end Retouch
