import Cleartext.Bytes
import Cleartext.Text.Hexadecimal
import Cleartext.Text.Printable

/-!
# Quoted text

Text between quotes for messages and listings.  The quote and the backslash
are escaped, printable characters stand for themselves, and every other
character is shown by a short escape or by its code point.  Bytes that are no
UTF-8 text are shown as two hexadecimal digits each.
-/

namespace Cleartext.Text

/-- One piece of a byte string read as UTF-8: a character, or a byte that
belongs to none. -/
inductive Piece
  | char (c : Char)
  | byte (b : UInt8)

/-- The first character of a byte string and the bytes it takes, when the
string starts with a well-formed UTF-8 sequence. -/
def utf8Head? : Bytes → Option (Char × Nat)
  | [] => none
  | a :: rest =>
    let cont (b : UInt8) : Bool := b &&& 0xc0 == 0x80
    let low (b : UInt8) : Nat := (b &&& 0x3f).toNat
    if a < 0x80 then some (Char.ofNat a.toNat, 1)
    else if 0xc2 ≤ a && a < 0xe0 then
      match rest with
      | b :: _ => if cont b then some (Char.ofNat ((a &&& 0x1f).toNat * 64 + low b), 2) else none
      | _ => none
    else if 0xe0 ≤ a && a < 0xf0 then
      match rest with
      | b :: c :: _ =>
        let v := ((a &&& 0x0f).toNat * 64 + low b) * 64 + low c
        if cont b && cont c && 0x800 ≤ v && !(0xd800 ≤ v && v < 0xe000) then some (Char.ofNat v, 3)
        else none
      | _ => none
    else if 0xf0 ≤ a && a < 0xf5 then
      match rest with
      | b :: c :: d :: _ =>
        let v := (((a &&& 0x07).toNat * 64 + low b) * 64 + low c) * 64 + low d
        if cont b && cont c && cont d && 0x10000 ≤ v && v < 0x110000 then some (Char.ofNat v, 4)
        else none
      | _ => none
    else none

/-- The pieces of a byte string.  The fuel is the number of bytes, and every
piece takes at least one. -/
def piecesAux : Nat → Bytes → List Piece
  | 0, _ => []
  | _, [] => []
  | fuel + 1, b :: rest =>
    match utf8Head? (b :: rest) with
    | some (c, n) => .char c :: piecesAux fuel (rest.drop (n - 1))
    | none => .byte b :: piecesAux fuel rest

/-- The characters of a byte string, and the bytes that belong to none. -/
def pieces (bytes : Bytes) : List Piece := piecesAux bytes.length bytes

/-- A byte string read as UTF-8, with U+FFFD for every byte that belongs to
no character. -/
def lossy (bytes : Bytes) : String :=
  String.ofList ((pieces bytes).map fun
    | .char c => c
    | .byte _ => '\uFFFD')

/-- How a character is shown between `quote` marks. -/
def escapeChar (quote : Char) (c : Char) : String :=
  if c = quote || c = '\\' then String.ofList ['\\', c]
  else if isPrintable c then c.toString
  else match c.toNat with
    | 7 => "\\a"
    | 8 => "\\b"
    | 9 => "\\t"
    | 10 => "\\n"
    | 11 => "\\v"
    | 12 => "\\f"
    | 13 => "\\r"
    | n =>
      if n < 0x20 || n = 0x7f then "\\x" ++ hexPadded 2 n
      else if n < 0x10000 then "\\u" ++ hexPadded 4 n
      else "\\U" ++ hexPadded 8 n

/-- How a piece is shown between double quotes. -/
def escapePiece : Piece → String
  | .char c => escapeChar '"' c
  | .byte b => "\\x" ++ hexPadded 2 b.toNat

/-- A text between double quotes. -/
def quote (text : String) : String :=
  "\"" ++ String.join (text.toList.map (escapeChar '"')) ++ "\""

/-- A byte string between double quotes. -/
def quoteBytes (bytes : Bytes) : String :=
  "\"" ++ String.join ((pieces bytes).map escapePiece) ++ "\""

/-- A character between single quotes. -/
def quoteChar (c : Char) : String :=
  "'" ++ escapeChar '\'' c ++ "'"

end Cleartext.Text
