import Cleartext.Text.Quoted

/-!
# Styles

How texts stand out on a terminal: each role has its escape codes, and without
colours a text stands for itself.  The module also shortens texts and names
for lines of a report.
-/

namespace Cleartext.Text

/-- What a text is in a report. -/
inductive Role
  | bold
  | faint
  | className
  | methodName
  | routine
  | literal
  | value
  | success
  | fault
deriving DecidableEq, Repr

/-- The codes that switch a style on and off. -/
def Role.codes : Role → String × String
  | .bold | .className => ("1", "22")
  | .faint => ("2", "22")
  | .methodName => ("36", "0")
  | .routine => ("35", "0")
  | .literal => ("33", "0")
  | .value => ("32", "0")
  | .success => ("1;32", "22;0")
  | .fault => ("1;31", "22;0")

/-- A text in the style of its role. -/
def styled (colored : Bool) (role : Role) (text : String) : String :=
  if colored then s!"\x1b[{role.codes.1}m" ++ text ++ s!"\x1b[{role.codes.2}m" else text

/-- The number of characters that a shortened text keeps. -/
def shownLength : Nat := 120

/-- A text between quotes, cut when it is long. -/
def quoteShort (text : String) : String :=
  if text.length ≤ shownLength then quote text
  else quote (String.ofList (text.toList.take shownLength)) ++ "..."

/-- Blanks in front of a member of a listing: at least one. -/
def padding (n : Int) : String := if 0 < n then String.ofList (List.replicate n.toNat ' ') else " "

end Cleartext.Text
