import Retouch.Text

/-!
Colours for a terminal, and colorized diffs. Painted text is put between an opening code and a reset
code; where the text itself holds a reset code, the opening code follows it once more.
-/

namespace Retouch

inductive Style where
  | red
  | green
  | yellow
  | cyan
  | bold
  | dimmed
  | underlined
  | boldRed
  deriving DecidableEq, Repr

namespace Paint

def reset : Text := ['\x1b', '[', '0', 'm']

def opening : Style → Text
  | .red => ['\x1b', '[', '3', '1', 'm']
  | .green => ['\x1b', '[', '3', '2', 'm']
  | .yellow => ['\x1b', '[', '3', '3', 'm']
  | .cyan => ['\x1b', '[', '3', '6', 'm']
  | .bold => ['\x1b', '[', '1', 'm']
  | .dimmed => ['\x1b', '[', '2', 'm']
  | .underlined => ['\x1b', '[', '4', 'm']
  | .boldRed => ['\x1b', '[', '1', ';', '3', '1', 'm']

/-- Repeat the opening code after every reset code of the text. -/
def reopen (code : Text) : Text → Text
  | '\x1b' :: '[' :: '0' :: 'm' :: rest => reset ++ code ++ reopen code rest
  | c :: rest => c :: reopen code rest
  | [] => []

/-- Painted text, or the text itself where colours are off. -/
def paint (colours : Bool) (style : Style) (t : Text) : Text :=
  if colours then opening style ++ reopen (opening style) t ++ reset else t

def words (colours : Bool) (style : Style) (s : String) : String :=
  String.ofList (paint colours style s.toList)

/-- A line of a comparison: removed lines are red and added lines green. -/
def diffLine (colours : Bool) (line : Text) : Text :=
  match line with
  | '-' :: _ => paint colours .red line
  | '+' :: _ => paint colours .green line
  | _ => line

/-- Colorize a diff. -/
def diff (colours : Bool) (t : Text) : Text :=
  Text.joinLines ((Text.lines t).map (diffLine colours))

end Paint

end Retouch
