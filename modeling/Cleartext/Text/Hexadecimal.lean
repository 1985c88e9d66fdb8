/-!
# Hexadecimal text

Lower-case base-sixteen digits of a number, with or without a least number
of digits.
-/

namespace Cleartext.Text

/-- The digit for a value below thirty-six, lower case. -/
def digitChar (d : Nat) : Char :=
  if d < 10 then Char.ofNat (48 + d) else Char.ofNat (87 + d)

/-- The digits of `n` in `base`, most significant first; zero has one digit.
The fuel `n + 1` is enough, because the quotient is smaller each time. -/
def digitsAux (base : Nat) : Nat → Nat → List Char → List Char
  | 0, _, acc => acc
  | fuel + 1, n, acc =>
    let acc := digitChar (n % base) :: acc
    if n / base = 0 then acc else digitsAux base fuel (n / base) acc

/-- The number `n` in `base`, which is at least two and at most thirty-six. -/
def inBase (base n : Nat) : String := String.ofList (digitsAux base (n + 1) n [])

/-- `n` in lower-case hexadecimal. -/
def hex (n : Nat) : String := inBase 16 n

/-- Text filled up on the left with `fill` to at least `width` characters. -/
def padLeft (width : Nat) (fill : Char) (text : String) : String :=
  String.ofList (List.replicate (width - text.length) fill) ++ text

/-- Text filled up on the right with blanks to at least `width` characters. -/
def padRight (width : Nat) (text : String) : String :=
  text ++ String.ofList (List.replicate (width - text.length) ' ')

/-- `n` in hexadecimal with at least `digits` digits. -/
def hexPadded (digits n : Nat) : String := padLeft digits '0' (hex n)

/-- The value of a hexadecimal digit. -/
def hexDigit? (c : Char) : Option UInt8 :=
  if '0' ≤ c ∧ c ≤ '9' then some (c.toNat - 48).toUInt8
  else if 'a' ≤ c ∧ c ≤ 'f' then some (c.toNat - 87).toUInt8
  else if 'A' ≤ c ∧ c ≤ 'F' then some (c.toNat - 55).toUInt8
  else none

/-- The bytes that pairs of hexadecimal digits stand for, up to the first
character that is none. -/
def unhexAux : List Char → List UInt8
  | a :: b :: rest =>
    match hexDigit? a, hexDigit? b with
    | some x, some y => (x * 16 + y) :: unhexAux rest
    | _, _ => []
  | _ => []

/-- The bytes that a text of hexadecimal digits stands for. -/
def unhex (text : String) : List UInt8 := unhexAux text.toList

/-- Bytes as pairs of hexadecimal digits. -/
def hexBytes (bytes : List UInt8) : String :=
  String.ofList (bytes.flatMap fun b => [digitChar (b / 16).toNat, digitChar (b % 16).toNat])

/-- A whole number in `base`, with a minus sign when negative. -/
def intInBase (base : Nat) : Int → String
  | .ofNat n => inBase base n
  | .negSucc n => "-" ++ inBase base (n + 1)

end Cleartext.Text
