import Cleartext.Bytes

/-!
# Checksums

The cyclic redundancy check that archives keep of every entry: the polynomial
0x04C11DB7 with the bits of every byte taken lowest first.
-/

namespace Cleartext.Archive

/-- Moves a checksum by one bit. -/
def bitStep (c : UInt32) : UInt32 :=
  if c &&& 1 = 1 then (c >>> 1) ^^^ 0xedb88320 else c >>> 1

/-- The checksum of a single byte. -/
def byteStep (b : UInt32) : UInt32 := Nat.repeat bitStep 8 b

/-- The checksums of all bytes. -/
def byteSteps : Array UInt32 := Array.ofFn fun (i : Fin 256) => byteStep i.val.toUInt32

/-- Moves a checksum by a byte. -/
def checksumStep (c : UInt32) (b : UInt8) : UInt32 :=
  byteSteps.getD ((c ^^^ b.toUInt32) &&& 0xff).toNat 0 ^^^ (c >>> 8)

/-- The checksum of some bytes. -/
def checksum (bytes : Bytes) : UInt32 := bytes.foldl checksumStep 0xffffffff ^^^ 0xffffffff

end Cleartext.Archive
