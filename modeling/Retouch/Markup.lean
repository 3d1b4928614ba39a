import Retouch.Paint

/-!
Text in styled spans. One value stands for what is shown with colours and for what is shown
without them, and widths are counted on the text alone.
-/

namespace Retouch

/-- A piece of text and the styles that it is shown in. -/
structure Span where
  styles : List Style
  text : String
  deriving DecidableEq, Repr

/-- The text between the codes of its styles, or the text alone. -/
def Span.render (colours : Bool) (s : Span) : String :=
  if colours && !s.styles.isEmpty then
    String.ofList (s.styles.flatMap Paint.opening) ++ s.text ++ String.ofList Paint.reset
  else s.text

abbrev Markup := List Span

namespace Markup

def plain (s : String) : Markup := [⟨[], s⟩]

def heading (s : String) : Markup := [⟨[.bold, .underlined], s⟩]

def alert (s : String) : Markup := [⟨[.bold, .red], s⟩]

def literal (s : String) : Markup := [⟨[.bold], s⟩]

def valid (s : String) : Markup := [⟨[.green], s⟩]

def invalid (s : String) : Markup := [⟨[.yellow], s⟩]

def quoted (m : Markup) : Markup := plain "'" ++ m ++ plain "'"

def width (m : Markup) : Nat := m.foldl (fun n s => n + s.text.length) 0

def render (colours : Bool) (m : Markup) : String := String.join (m.map (Span.render colours))

end Markup

end Retouch
