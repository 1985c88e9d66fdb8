/-!
# Binary floating point numbers

The bits of a 32-bit or 64-bit floating point number, taken apart into a sign
and a whole number times a power of two.  Everything about the text of such a
number is computed from these parts in exact arithmetic.
-/

namespace Cleartext.Decimal

/-- A floating point number by its parts. -/
inductive Binary
  /-- Not a number. -/
  | nan
  /-- An infinity. -/
  | infinite (negative : Bool)
  /-- The number `significand · 2 ^ exponent`.  `narrowBelow` holds when the
  gap to the next smaller number is half the gap to the next larger one. -/
  | finite (negative : Bool) (significand : Nat) (exponent : Int) (narrowBelow : Bool)
deriving DecidableEq, Repr

namespace Binary

/-- Takes apart a number with `fraction` fraction bits and `width` exponent
bits, whose bits below the sign are `magnitude`. -/
def ofFields (fraction width : Nat) (negative : Bool) (magnitude : Nat) : Binary :=
  let biased := magnitude / Nat.pow 2 fraction
  let field := magnitude % Nat.pow 2 fraction
  let bias : Int := Nat.pow 2 (width - 1) - 1
  if biased = Nat.pow 2 width - 1 then
    if field = 0 then .infinite negative else .nan
  else if biased = 0 then
    .finite negative field (1 - bias - fraction) false
  else
    .finite negative (field + Nat.pow 2 fraction) (biased - bias - fraction) (field = 0 && biased > 1)

/-- The parts of a 32-bit number. -/
def ofBits32 (bits : UInt32) : Binary :=
  ofFields 23 8 (bits >= 0x80000000) (bits.toNat % 0x80000000)

/-- The parts of a 64-bit number. -/
def ofBits64 (bits : UInt64) : Binary :=
  ofFields 52 11 (bits >= 0x8000000000000000) (bits.toNat % 0x8000000000000000)

end Binary

end Cleartext.Decimal
