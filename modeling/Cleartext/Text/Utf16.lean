/-!
# UTF-16 code units

The strings of a class file are lists of 16-bit code units in which
surrogates need not be paired.  `ofText` encodes Unicode text; `text` decodes
units and shows every unpaired surrogate as U+FFFD, so it is the identity
only on well-formed units.
-/

namespace Cleartext

/-- A sequence of UTF-16 code units. -/
abbrev Units := List UInt16

namespace Units

/-- Whether a unit is the first half of a surrogate pair. -/
def isHigh (u : UInt16) : Bool := 0xd800 ≤ u && u ≤ 0xdbff

/-- Whether a unit is the second half of a surrogate pair. -/
def isLow (u : UInt16) : Bool := 0xdc00 ≤ u && u ≤ 0xdfff

/-- The code units of one character. -/
def ofChar (c : Char) : Units :=
  if c.val < 0x10000 then [c.val.toUInt16]
  else
    let v := c.val - 0x10000
    [(0xd800 : UInt16) + (v >>> 10).toUInt16, (0xdc00 : UInt16) + (v &&& 0x3ff).toUInt16]

/-- The code units of a text. -/
def ofText (text : String) : Units := text.toList.flatMap ofChar

/-- The character that a high and a low surrogate stand for. -/
def pairChar (high low : UInt16) : Char :=
  Char.ofNat (0x10000 + (high.toNat - 0xd800) * 0x400 + (low.toNat - 0xdc00))

/-- The character shown in place of an unpaired surrogate. -/
def replacement : Char := '\uFFFD'

/-- The characters of a sequence of units. -/
def chars : Units → List Char
  | [] => []
  | [u] => [if isHigh u || isLow u then replacement else Char.ofNat u.toNat]
  | u :: v :: rest =>
    if isHigh u && isLow v then pairChar u v :: chars rest
    else (if isHigh u || isLow u then replacement else Char.ofNat u.toNat) :: chars (v :: rest)

/-- The text of a sequence of units; unpaired surrogates read U+FFFD. -/
def text (units : Units) : String := String.ofList units.chars

end Units

end Cleartext
