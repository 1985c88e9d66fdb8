/-!
# Amounts

Numbers as people like to read them: counts in groups of three digits, and
sizes with a unit.
-/

namespace Cleartext.Text

/-- Digits in groups of three, counted from the last one; the argument and the
answer have the last digit first. -/
def grouped : List Char → List Char
  | a :: b :: c :: d :: rest => a :: b :: c :: ',' :: grouped (d :: rest)
  | digits => digits

/-- A count in groups of three digits. -/
def groupedCount (n : Nat) : String :=
  String.ofList (grouped (toString n).toList.reverse).reverse

/-- The units of sizes, each a thousand times the one before it. -/
def sizeUnits : List String := ["B", "kB", "MB", "GB", "TB", "PB", "EB"]

/-- The number of units that a size has outgrown: it stays below the last
one. -/
def outgrown (size : Nat) : Nat → Nat
  | 0 => 0
  | limit + 1 => if size < 1000 then 0 else outgrown (size / 1000) limit + 1

/-- A size with a unit.  It is rounded to tenths, and the tenth is shown below
ten units; a half that is left goes to the even neighbour. -/
def sizeText (size : Nat) : String :=
  if size < 10 then s!"{size} B"
  else
    let level := outgrown size (sizeUnits.length - 1)
    let base := Nat.pow 1000 level
    let tenths := (size * 20 + base) / (2 * base)
    let unit := (sizeUnits[level]?).getD "EB"
    if tenths < 100 then s!"{tenths / 10}.{tenths % 10} {unit}"
    else
      let whole := tenths / 10
      let isUp := 5 < tenths % 10 || (tenths % 10 = 5 && whole % 2 = 1)
      let shown := if isUp then whole + 1 else whole
      s!"{shown} {unit}"

end Cleartext.Text
