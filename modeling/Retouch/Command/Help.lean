import Retouch.Command.Options
import Retouch.Markup

/-!
What help says: the line that shows how a command is called, and the tables of commands, arguments
and options.
-/

namespace Retouch.Command

open Markup

/-- An item in a line of usage. Paths are not among the options, they end the line. -/
def Item.inUsage : Item → Markup
  | flag f => plain " " ++ literal ("--" ++ f.long) ++ plain f.tail
  | paths => []

def Flag.entry (f : Flag) : Markup :=
  (match f.letter? with
    | some c => literal ("-" ++ c.toString) ++ plain ", "
    | none => plain "    ") ++
  literal ("--" ++ f.long) ++ plain f.tail

structure Row where
  entry : Markup
  about : String

def table (title : String) (rows : List Row) : Markup :=
  let column := rows.foldl (fun w r => max w r.entry.width) 0
  heading title ++ rows.flatMap fun r =>
    plain "\n  " ++ r.entry ++
      plain (String.ofList (List.replicate (column + 2 - r.entry.width) ' ') ++ r.about)

namespace Topic

def operand : Topic → String
  | program => "<COMMAND>"
  | verb _ => "<PATHS>..."
  | help => "[COMMAND]..."

def aboutOperand : Topic → Option String
  | program => none
  | verb .fix => some "Files or directories to fix"
  | verb .check => some "Files or directories to check"
  | help => some "Print help for the subcommand(s)"

/-- How to call a command with the given items, or with options at large if there are none. -/
def usage (t : Topic) (items : List Item) : Markup :=
  heading "Usage:" ++ plain " " ++ literal t.call ++
    (if !items.isEmpty then items.flatMap Item.inUsage
      else if t.flags.isEmpty then []
      else plain " [OPTIONS]") ++
    plain (" " ++ t.operand)

def tables (t : Topic) : List Markup :=
  let commands := t.commands.map fun c => (⟨literal c.name, c.about⟩ : Row)
  let operands := t.aboutOperand.toList.map fun about => (⟨plain t.operand, about⟩ : Row)
  let options := t.listedFlags.map fun f => (⟨f.entry, f.about⟩ : Row)
  ([("Commands:", commands), ("Arguments:", operands), ("Options:", options)].filter
    fun s => !s.2.isEmpty).map fun s => table s.1 s.2

def manual (t : Topic) : Markup :=
  plain t.about ++ plain "\n\n" ++ t.usage [] ++
    t.tables.flatMap (fun m => plain "\n\n" ++ m) ++ plain "\n"

end Topic

end Retouch.Command
