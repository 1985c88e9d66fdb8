import Cleartext.Command.Table

/-!
# Help

What a command says about itself.
-/

namespace Cleartext.Command

/-- The name of the value of a flag. -/
def FlagType.valueName : FlagType → String
  | .bool => ""
  | .int => " int"
  | .duration => " duration"
  | .text => " string"

/-- The default of a flag, when it is worth telling. -/
def Flag.defaultText (f : Flag) : String :=
  match f.type, f.default with
  | .int, .int n => if n = 0 then "" else s!" (default {n})"
  | .duration, .text d => if d = "0s" then "" else s!" (default {d})"
  | .text, .text s => if s = "" then "" else s!" (default {Text.quote s})"
  | _, _ => ""

/-- A flag as the usage shows it. -/
def Flag.form (f : Flag) : String :=
  (match f.short with
    | some c => s!"  -{c}, --{f.name}"
    | none => s!"      --{f.name}") ++ f.type.valueName

/-- A text with blanks behind it up to a width. -/
def padRight (width : Nat) (s : String) : String := s ++ "".pushn ' ' (width - s.length)

/-- The lines about flags, by name. -/
def flagLines (flags : List Flag) : List String :=
  let flags := flags.mergeSort fun a b => a.name ≤ b.name
  let width := (flags.map fun f => f.form.length).foldl max 0
  flags.map fun f => padRight width f.form ++ "   " ++ f.usage ++ f.defaultText

/-- The least width of the names of commands in a list. -/
def nameWidth : Nat := 11

/-- The flags that a command has of its own. -/
def ownFlags (c : Command) : List Flag :=
  c.helpFlag :: if c.path.isEmpty then commonFlags else c.flags

/-- A part of the usage: a title and lines. -/
def part (title : String) (lines : List String) : List String :=
  if lines.isEmpty then [] else ["", title] ++ lines

/-- How a command is used. -/
def usage (c : Command) : String :=
  let children := c.children
  let line := c.fullName ++ (if c.operands = "" then "" else " " ++ c.operands) ++ " [flags]"
  let lines :=
    ["Usage:"] ++
    (if c.action.isSome then ["  " ++ line] else []) ++
    (if children.isEmpty then [] else ["  " ++ c.fullName ++ " [command]"]) ++
    part "Aliases:" (if c.aliases.isEmpty then []
      else ["  " ++ ", ".intercalate (c.name :: c.aliases)]) ++
    part "Examples:" c.examples ++
    part "Available Commands:"
      (children.map fun k => "  " ++ padRight nameWidth k.name ++ " " ++ k.summary) ++
    part "Flags:" (flagLines c.ownFlags) ++
    part "Global Flags:" (if c.path.isEmpty then [] else flagLines commonFlags) ++
    if children.isEmpty then []
    else ["", s!"Use \"{c.fullName} [command] --help\" for more information about a command."]
  "\n".intercalate lines ++ "\n"

/-- What a command says about itself. -/
def help (c : Command) : String := c.summary ++ "\n\n" ++ c.usage

/-! ## Suggestions -/

/-- The next row of a table of distances: `above` is the row before it. -/
def distanceRow (c : Char) : (corner last : Nat) → List Char → List Nat → List Nat
  | corner, last, d :: word, above :: row =>
    let here := min (min (above + 1) (last + 1)) (if c = d then corner else corner + 1)
    here :: distanceRow c above here word row
  | _, _, _, _ => []

/-- The number of letters that are to be added, dropped or changed to make one
word of another. -/
def distance (first second : String) : Nat :=
  let word := second.toLower.toList
  let row := first.toLower.toList.foldl (fun row c =>
    let start := row.headD 0 + 1
    start :: distanceRow c (row.headD 0) start word row.tail) (List.range (word.length + 1))
  row.getLastD 0

/-- What the caller of an unknown command may have meant. -/
def suggestions (c : Command) (word : String) : List String :=
  (c.children.filter fun k => k.path ≠ ["help"] &&
    (distance word k.name ≤ 2 || k.name.startsWith word.toLower)).map (·.name)

/-- The complaint about an unknown command. -/
def unknownCommand (c : Command) (word : String) : String :=
  let meant := suggestions c word
  s!"unknown command {Text.quote word} for {Text.quote c.fullName}" ++
    if meant.isEmpty then ""
    else "\n\nDid you mean this?\n" ++ String.join (meant.map fun m => "\t" ++ m ++ "\n")

end Cleartext.Command
