import Cleartext.Text.ByteCharset
import Cleartext.Text.Quoted
import Cleartext.Text.Utf16

/-!
# Charsets

Encoding text as bytes and decoding bytes as text.  Which charsets there are,
and what each of them does, is left open: `Charsets` is what a run is given.

`Charsets.standard` knows the common ones by their registered names, in any
case.  A character that such a charset lacks is written as the substitute
0x1A; bytes that stand for no character read U+FFFD.
-/

namespace Cleartext.Text

/-- A charset: the bytes of a text, and the text of bytes.  What cannot be
converted is told in words. -/
structure Charset where
  encode : String → Except String Bytes
  decode : Bytes → Except String String

/-- The charsets that are known by name, and the one that is used when none is
named. -/
structure Charsets where
  usual : Charset
  find? : String → Option Charset

/-! ## Common charsets -/

/-- How a common charset stands for characters. -/
inductive Coding
  | utf8
  | ascii
  /-- Two bytes for each code unit.  With `mark` a byte order mark is written
  and read; `little` puts the low byte first. -/
  | utf16 (little mark : Bool)
  /-- One byte for each character; ASCII in the lower half. -/
  | bytes (upper : Array Char)

/-- The common charset with the given name. -/
def Coding.find? (name : String) : Option Coding :=
  let name := name.map Char.toLower
  if name ∈ ["utf-8", "csutf8"] then some .utf8
  else if name ∈ ["us-ascii", "iso-ir-6", "ansi_x3.4-1968", "ansi_x3.4-1986", "iso_646.irv:1991",
    "iso646-us", "us", "ibm367", "cp367", "csascii"] then some .ascii
  else if name ∈ ["utf-16", "csutf16"] then some (.utf16 false true)
  else if name ∈ ["utf-16be", "csutf16be"] then some (.utf16 false false)
  else if name ∈ ["utf-16le", "csutf16le"] then some (.utf16 true false)
  else (byteCharsets.find? fun c => name ∈ c.names).map fun c => .bytes c.upper.toList.toArray

/-- The byte written for a character that a charset lacks. -/
def substitute : UInt8 := 0x1a

/-- The two bytes of a code unit. -/
def unitBytes (little : Bool) (u : UInt16) : Bytes :=
  if little then (Bytes.ofU16 u).reverse else Bytes.ofU16 u

/-- The bytes of a text. -/
def Coding.encode (text : String) : Coding → Bytes
  | .utf8 => Bytes.ofText text
  | .ascii => text.toList.map fun c => if c.val < 0x80 then c.val.toUInt8 else substitute
  | .utf16 little mark =>
    (if mark then unitBytes little 0xfeff else []) ++
      (Units.ofText text).flatMap (unitBytes little)
  | .bytes upper => text.toList.map fun c =>
    if c.val < 0x80 then c.val.toUInt8
    else if c = '\uFFFD' then substitute
    else match upper.findIdx? (· == c) with
      | some i => (i + 0x80).toUInt8
      | none => substitute

/-! ## Decoding UTF-8 -/

/-- Whether `b` can follow the first byte `a` of a sequence of three or four
bytes. -/
def canFollow (a b : UInt8) : Bool :=
  if a = 0xe0 then 0xa0 ≤ b && b ≤ 0xbf
  else if a = 0xed then 0x80 ≤ b && b ≤ 0x9f
  else if a = 0xf0 then 0x90 ≤ b && b ≤ 0xbf
  else if a = 0xf4 then 0x80 ≤ b && b ≤ 0x8f
  else 0xe1 ≤ a && a ≤ 0xf3 && 0x80 ≤ b && b ≤ 0xbf

/-- The number of bytes at the start of ill-formed UTF-8 that could have begun
a character; together they are read as one U+FFFD. -/
def brokenLength : Bytes → Nat
  | a :: b :: rest =>
    if !canFollow a b then 1
    else match rest with
      | c :: _ => if 0x80 ≤ c && c ≤ 0xbf then 3 else 2
      | [] => 2
  | _ => 1

/-- The characters of UTF-8.  The fuel is the number of bytes, and every
character takes at least one. -/
def utf8CharsAux : Nat → Bytes → List Char
  | 0, _ => []
  | _, [] => []
  | fuel + 1, b :: rest =>
    match utf8Head? (b :: rest) with
    | some (c, n) => c :: utf8CharsAux fuel (rest.drop (n - 1))
    | none => '\uFFFD' :: utf8CharsAux fuel (rest.drop (brokenLength (b :: rest) - 1))

/-- The characters of UTF-8. -/
def utf8Chars (bytes : Bytes) : List Char := utf8CharsAux bytes.length bytes

/-! ## Decoding UTF-16 -/

/-- The code units of pairs of bytes; a byte that is left over reads U+FFFD. -/
def pairUnits (little : Bool) : Bytes → Units
  | a :: b :: rest => (if little then Bytes.toU16 b a else Bytes.toU16 a b) :: pairUnits little rest
  | [_] => [0xfffd]
  | [] => []

/-- The characters of code units.  A surrogate takes a low surrogate that
follows it along, whether or not the two are a pair. -/
def unitChars : Units → List Char
  | u :: v :: rest =>
    if Units.isLow v && Units.isHigh u then Units.pairChar u v :: unitChars rest
    else if Units.isLow v && Units.isLow u then '\uFFFD' :: unitChars rest
    else (Units.chars [u]) ++ unitChars (v :: rest)
  | units => units.chars

/-- The characters of UTF-16. -/
def utf16Chars (little : Bool) (bytes : Bytes) : List Char := unitChars (pairUnits little bytes)

/-- The text of bytes. -/
def Coding.decode (bytes : Bytes) : Coding → String
  | .utf8 => String.ofList (utf8Chars bytes)
  | .ascii => String.ofList (bytes.map fun b => if b < 0x80 then Char.ofNat b.toNat else '\uFFFD')
  | .utf16 little mark =>
    if mark then
      match bytes with
      | 0xfe :: 0xff :: rest => String.ofList (utf16Chars false rest)
      | 0xff :: 0xfe :: rest => String.ofList (utf16Chars true rest)
      | _ => String.ofList (utf16Chars little bytes)
    else String.ofList (utf16Chars little bytes)
  | .bytes upper => String.ofList (bytes.map fun b =>
    if b < 0x80 then Char.ofNat b.toNat else upper.getD (b.toNat - 0x80) '\uFFFD')

/-- The charset of a coding, in which every text and all bytes can be converted. -/
def Coding.charset (c : Coding) : Charset :=
  { encode := fun text => .ok (c.encode text), decode := fun bytes => .ok (c.decode bytes) }

/-- The common charsets; the usual one is UTF-8. -/
def Charsets.standard : Charsets :=
  { usual := Coding.utf8.charset, find? := fun name => (Coding.find? name).map Coding.charset }

end Cleartext.Text
