import Cleartext.Bytes
import Cleartext.Error
import Cleartext.Text.Utf16

/-!
# Modified UTF-8

The encoding of text inside a constant pool.  Every code unit is written on
its own in one, two or three bytes: a pair of surrogates takes six bytes,
and the unit zero is written in two bytes, so that no zero byte appears.

`decode` also reads zero bytes and overlong forms, which `encode` never
writes.
-/

namespace Cleartext.ModifiedUtf8

/-- Whether a byte continues a sequence. -/
def isContinuation (b : UInt8) : Bool := b &&& 0xc0 == 0x80

/-- The units of the bytes that start at offset `pos`. -/
def decodeFrom : Nat → Bytes → Except Error Units
  | _, [] => .ok []
  | pos, x :: rest =>
    if x &&& 0x80 == 0 then do
      return x.toUInt16 :: (← decodeFrom (pos + 1) rest)
    else if x &&& 0xe0 == 0xc0 then
      match rest with
      | y :: rest =>
        if isContinuation y then do
          let unit := ((x &&& 0x1f).toUInt16 <<< 6) ||| (y &&& 0x3f).toUInt16
          return unit :: (← decodeFrom (pos + 2) rest)
        else .error (.malformed (.shortSequence 2 pos))
      | [] => .error (.malformed (.shortSequence 2 pos))
    else if x &&& 0xf0 == 0xe0 then
      match rest with
      | y :: z :: rest =>
        if isContinuation y && isContinuation z then do
          let unit := ((x &&& 0x0f).toUInt16 <<< 12) |||
            ((y &&& 0x3f).toUInt16 <<< 6) ||| (z &&& 0x3f).toUInt16
          return unit :: (← decodeFrom (pos + 3) rest)
        else .error (.malformed (.shortSequence 3 pos))
      | _ => .error (.malformed (.shortSequence 3 pos))
    else .error (.malformed (.badTextByte x pos))

/-- The code units that a byte string stands for. -/
def decode (bytes : Bytes) : Except Error Units := decodeFrom 0 bytes

/-- The bytes of one code unit. -/
def encodeUnit (u : UInt16) : Bytes :=
  if u != 0 && u < 0x80 then [u.toUInt8]
  else if u < 0x800 then [(u >>> 6).toUInt8 ||| 0xc0, (u &&& 0x3f).toUInt8 ||| 0x80]
  else [(u >>> 12).toUInt8 ||| 0xe0, ((u >>> 6) &&& 0x3f).toUInt8 ||| 0x80,
    (u &&& 0x3f).toUInt8 ||| 0x80]

/-- The bytes of a sequence of code units. -/
def encode (units : Units) : Bytes := units.flatMap encodeUnit

end Cleartext.ModifiedUtf8
