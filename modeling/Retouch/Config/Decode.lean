import Retouch.Config
import Retouch.Toml.Grammar

/-!
Settings from a TOML document: four tables with known keys, all of them optional. A table may also
be written as an array that gives its settings by position.
-/

namespace Retouch.Config

open Toml (Value Entries)

/-! ### Single settings -/

def natural? : Value → Option Nat
  | .integer n => if 0 ≤ n then some n.toNat else none
  | _ => none

def string? : Value → Option String
  | .string t => some (String.ofList t)
  | _ => none

def strings? : Value → Option (List String)
  | .array items => items.mapM string?
  | _ => none

/-- An empty table or array: the content of a name that carries no data. -/
def isBare : Value → Bool
  | .table _ [] => true
  | .array [] => true
  | _ => false

/-- A terminator by its name, which may also be the only key of a table. -/
def terminator? : Value → Option Terminator
  | .string t => Terminator.ofName? (String.ofList t)
  | .table _ [(name, content)] =>
    if isBare content then Terminator.ofName? (String.ofList name) else none
  | _ => none

/-! ### Tables -/

/-- The values of the named settings; nothing if the table has any other key. -/
def settings? (names : List String) : Value → Option (List (Option Value))
  | .table _ entries =>
    if entries.all fun e => names.contains (String.ofList e.1) then
      some (names.map fun name => Entries.get? name.toList entries)
    else none
  | .array items => some ((List.range names.length).map fun i => items[i]?)
  | .tables items => some ((List.range names.length).map fun i => items[i]?)
  | _ => none

def optional {α : Type} (read : Value → Option α) : Option Value → Option (Option α)
  | none => some none
  | some v => (read v).map some

def table? (names : List String) : Option Value → Option (List (Option Value))
  | none => some (names.map fun _ => none)
  | some v => settings? names v

def ofEntries? (entries : Entries) : Option Config := do
  let tables ← settings? ["fixer", "diff", "files", "sniffs"] (.table .header entries)
  let table (i : Nat) : Option Value := (tables[i]?).join
  let passes ← table? ["max_passes", "line_terminator"] (table 0)
  let diff ← table? ["command"] (table 1)
  let files ← table? ["extensions"] (table 2)
  let rules ← table? ["tab_width", "enabled"] (table 3)
  let maxPasses ← optional natural? (passes[0]?).join
  let terminator ← optional terminator? (passes[1]?).join
  let command ← optional string? (diff[0]?).join
  let extensions ← optional strings? (files[0]?).join
  let tabWidth ← optional natural? (rules[0]?).join
  let enabled ← optional strings? (rules[1]?).join
  let base : Config := {}
  some {
    maxPasses := maxPasses.getD base.maxPasses
    terminator := terminator
    command := command.getD base.command
    extensions := extensions.getD base.extensions
    tabWidth := tabWidth.getD base.tabWidth
    enabled := enabled }

end Retouch.Config
