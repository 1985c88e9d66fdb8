import Cleartext.Text.Hexadecimal
import Cleartext.Text.Quoted

/-!
# Durations

Spans of time in nanoseconds, and their texts: numbers with units, as in
`1h2m3.5s`.
-/

namespace Cleartext.Settings

/-- A span of time in nanoseconds. -/
structure Duration where
  nanoseconds : Int
deriving DecidableEq, Repr, Inhabited

/-- Why a text is no duration. -/
inductive DurationFlaw
  | form
  | noUnit
  | unknownUnit (unit : String)
deriving Repr

/-- The wording of a flaw of a text. -/
def DurationFlaw.message (text : String) : DurationFlaw → String
  | .form => "time: invalid duration " ++ Text.quote text
  | .noUnit => "time: missing unit in duration " ++ Text.quote text
  | .unknownUnit unit => "time: unknown unit " ++ Text.quote unit ++ " in duration " ++ Text.quote text

/-- The wording of a flaw that does not show the text. -/
def DurationFlaw.discreet : DurationFlaw → String
  | .form => "time: invalid duration"
  | .noUnit => "time: missing unit in duration"
  | .unknownUnit _ => "time: unknown unit"

/-- The nanoseconds of a unit. -/
def unit? (name : String) : Option Nat :=
  match name with
  | "ns" => some 1
  | "us" | "µs" | "μs" => some 1000
  | "ms" => some 1000000
  | "s" => some 1000000000
  | "m" => some 60000000000
  | "h" => some 3600000000000
  | _ => none

/-- The number with the given digits. -/
def digitsValue (digits : List Char) : Nat := digits.foldl (fun n d => n * 10 + (d.toNat - 48)) 0

/-- Reads numbers with units.  Every part takes a character, so the length of
the text is enough fuel. -/
def readParts : Nat → List Char → Nat → Except DurationFlaw Nat
  | _, [], sum => .ok sum
  | 0, _, _ => .error .form
  | fuel + 1, text, sum =>
    let whole := text.takeWhile Char.isDigit
    let (places, rest) := match text.dropWhile Char.isDigit with
      | '.' :: rest => (rest.takeWhile Char.isDigit, rest.dropWhile Char.isDigit)
      | rest => ([], rest)
    let isUnit (c : Char) : Bool := !(c.isDigit || c = '.')
    let name := rest.takeWhile isUnit
    if whole.isEmpty && places.isEmpty then .error .form
    else if name.isEmpty then .error .noUnit
    else match unit? (String.ofList name) with
      | none => .error (.unknownUnit (String.ofList name))
      | some unit =>
        let part := digitsValue whole * unit + digitsValue places * unit / Nat.pow 10 places.length
        if 0x8000000000000000 < sum + part then .error .form
        else readParts fuel (rest.dropWhile isUnit) (sum + part)

/-- Reads a duration. -/
def Duration.parse (text : String) : Except DurationFlaw Duration :=
  let (negative, rest) := match text.toList with
    | '-' :: rest => (true, rest)
    | '+' :: rest => (false, rest)
    | rest => (false, rest)
  if rest = ['0'] then .ok ⟨0⟩
  else if rest.isEmpty then .error .form
  else match readParts rest.length rest 0 with
    | .error flaw => .error flaw
    | .ok n =>
      if negative then .ok ⟨-n⟩ else if 0x8000000000000000 ≤ n then .error .form else .ok ⟨n⟩

/-- A number of `places` places behind the point, without zeros at its end. -/
def decimalText (n places : Nat) : String :=
  let digits := (Text.padLeft places '0' (Text.inBase 10 (n % Nat.pow 10 places))).toList
  let kept := (digits.reverse.dropWhile (· = '0')).reverse
  Text.inBase 10 (n / Nat.pow 10 places) ++
    if places = 0 || kept.isEmpty then "" else "." ++ String.ofList kept

/-- The text of a duration. -/
def Duration.text (d : Duration) : String :=
  let n := d.nanoseconds.natAbs
  let body :=
    if n = 0 then "0s"
    else if n < 1000 then decimalText n 0 ++ "ns"
    else if n < 1000000 then decimalText n 3 ++ "µs"
    else if n < 1000000000 then decimalText n 6 ++ "ms"
    else
      let minutes := n / 60000000000
      let seconds := decimalText (n % 60000000000) 9 ++ "s"
      if minutes = 0 then seconds
      else if minutes < 60 then s!"{minutes}m" ++ seconds
      else s!"{minutes / 60}h{minutes % 60}m" ++ seconds
  (if d.nanoseconds < 0 then "-" else "") ++ body

end Cleartext.Settings
