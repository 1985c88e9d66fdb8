import Cleartext.Decimal.Binary

/-!
# Rounding to binary

The floating point number nearest to a fraction, by its bits.  A tie goes to
the even significand, and what is too large has no bits.
-/

namespace Cleartext.Decimal

/-- A binary format: the number of fraction bits and of exponent bits. -/
structure Format where
  fraction : Nat
  width : Nat

/-- Numbers of 32 bits. -/
def single : Format := ⟨23, 8⟩

/-- Numbers of 64 bits. -/
def double : Format := ⟨52, 11⟩

namespace Format

/-- The exponent of the smallest positive number. -/
def least (f : Format) : Int := 2 - Nat.pow 2 (f.width - 1) - f.fraction

/-- The bits of infinity. -/
def infinity (f : Format) : Nat := (Nat.pow 2 f.width - 1) * Nat.pow 2 f.fraction

/-- The bits of a value that is not a number. -/
def nan (f : Format) : Nat := f.infinity + Nat.pow 2 (f.fraction - 1) + 1

/-- The bit of the sign. -/
def sign (f : Format) : Nat := Nat.pow 2 (f.fraction + f.width)

end Format

/-- The whole number nearest to `num / den`, a tie going to the even one. -/
def roundHalfEven (num den : Nat) : Nat :=
  let q := num / den
  let twice := 2 * (num % den)
  if twice < den then q
  else if den < twice then q + 1
  else if q % 2 = 0 then q else q + 1

/-- A lower bound of the binary logarithm of `num / den` that is off by one at
most. -/
def logBelow (num den : Nat) : Int := (Nat.log2 num : Int) - (Nat.log2 den : Int) - 1

/-- `num / den / 2 ^ power`, rounded. -/
def roundScaled (num den : Nat) (power : Int) : Nat :=
  roundHalfEven (num * Nat.pow 2 (-power).toNat) (den * Nat.pow 2 power.toNat)

/-- The bits of the number nearest to the positive fraction `num / den`; none
when it is too large. -/
def roundToBits (f : Format) (num den : Nat) : Option Nat :=
  if num = 0 then some 0
  else
    let guess := logBelow num den - f.fraction
    -- The guess may be one too low, which shows in one bit too many.
    let fits := num * Nat.pow 2 (-guess).toNat < den * Nat.pow 2 guess.toNat * Nat.pow 2 (f.fraction + 1)
    let power := max f.least (if fits then guess else guess + 1)
    let significand := roundScaled num den power
    let bits :=
      if significand < Nat.pow 2 f.fraction then significand
      else (power - f.least + 1).toNat * Nat.pow 2 f.fraction + (significand - Nat.pow 2 f.fraction)
    if f.infinity ≤ bits then none else some bits

end Cleartext.Decimal
