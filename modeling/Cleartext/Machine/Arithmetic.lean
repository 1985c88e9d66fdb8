import Cleartext.Code.Opcode
import Cleartext.Decimal.Shortest

/-!
# Arithmetic

The operations on numbers.  Whole numbers wrap, shifts take their distance
modulo the width, and division goes toward zero.  Floating point operations
are those of the hardware, except for the remainder, which is computed
exactly.
-/

namespace Cleartext.Machine

/-! ## Whole numbers -/

/-- A binary operation on ints; nothing when it divides by zero. -/
def intOp (op : Opcode) (a b : Int32) : Option Int32 :=
  match op with
  | .iadd => some (a + b)
  | .isub => some (a - b)
  | .imul => some (a * b)
  | .idiv => if b = 0 then none else some (a / b)
  | .irem => if b = 0 then none else some (a % b)
  | .ishl => some (a <<< (b &&& 31))
  | .ishr => some (a >>> (b &&& 31))
  | .iushr => some (a.toUInt32 >>> (b &&& 31).toUInt32).toInt32
  | .iand => some (a &&& b)
  | .ior => some (a ||| b)
  | _ => some (a ^^^ b)

/-- A binary operation on longs; nothing when it divides by zero. -/
def longOp (op : Opcode) (a b : Int64) : Option Int64 :=
  match op with
  | .ladd => some (a + b)
  | .lsub => some (a - b)
  | .lmul => some (a * b)
  | .ldiv => if b = 0 then none else some (a / b)
  | .lrem => if b = 0 then none else some (a % b)
  | .land => some (a &&& b)
  | .lor => some (a ||| b)
  | _ => some (a ^^^ b)

/-- A shift of a long. -/
def longShift (op : Opcode) (a : Int64) (distance : Int32) : Int64 :=
  let n := (distance &&& 63).toUInt32.toUInt64
  match op with
  | .lshl => a <<< n.toInt64
  | .lshr => a >>> n.toInt64
  | _ => (a.toUInt64 >>> n).toInt64

/-- The sign of a comparison. -/
def compareInt (a b : Int) : Int32 := if a < b then -1 else if b < a then 1 else 0

/-! ## Floating point numbers -/

/-- The remainder of a division whose quotient is rounded toward zero.  It has
the sign of the dividend and is exact. -/
def floatRem (x y : Float) : Float :=
  match Decimal.Binary.ofBits64 x.toBits, Decimal.Binary.ofBits64 y.toBits with
  | .finite negative m e _, .finite _ n f _ =>
    if n = 0 then 0.0 / 0.0
    else
      let low := min e f
      let r := (m * Nat.pow 2 (e - low).toNat) % (n * Nat.pow 2 (f - low).toNat)
      let magnitude := (Float.ofNat r).scaleB low
      if negative then -magnitude else magnitude
  | .finite .., .infinite _ => x
  | _, _ => 0.0 / 0.0

/-- A binary operation on doubles. -/
def doubleOp (op : Opcode) (a b : Float) : Float :=
  match op with
  | .dadd => a + b
  | .dsub => a - b
  | .dmul => a * b
  | .ddiv => a / b
  | _ => floatRem a b

/-- The operation on doubles that an operation on floats rounds. -/
def doubled : Opcode → Opcode
  | .fadd => .dadd
  | .fsub => .dsub
  | .fmul => .dmul
  | .fdiv => .ddiv
  | _ => .drem

/-- A binary operation on floats. -/
def floatOp (op : Opcode) (a b : Float32) : Float32 :=
  (doubleOp (doubled op) a.toFloat b.toFloat).toFloat32

/-- The sign of a comparison of doubles; `unordered` is the answer when one
is no number. -/
def compareDouble (a b : Float) (unordered : Int32) : Int32 :=
  if a.isNaN || b.isNaN then unordered
  else if a < b then -1
  else if b < a then 1
  else 0

/-! ## Texts of numbers -/

/-- The text of a floating point number: positional between a thousandth and
ten million, otherwise with an exponent, and always with a point. -/
def floatText : Decimal.Binary → String
  | .nan => "NaN"
  | .infinite negative => if negative then "-Infinity" else "Infinity"
  | .finite negative significand exponent narrowBelow =>
    let d := Decimal.shortest significand exponent narrowBelow
    let pointed (text : String) : String := if text.contains '.' then text else text ++ ".0"
    (if negative then "-" else "") ++
      if significand = 0 then "0.0"
      else if -3 ≤ d.order && d.order < 7 then pointed d.positional
      else pointed d.mantissa ++ "E" ++ toString d.order

/-- The number that a text in `base` stands for, if it is one within the
range of an int. -/
def parseInt? (base : Nat) (text : String) : Option Int32 :=
  let digit? (c : Char) : Option Nat :=
    let d := if c.isDigit then c.toNat - 48
      else if 'a' ≤ c ∧ c ≤ 'z' then c.toNat - 87
      else if 'A' ≤ c ∧ c ≤ 'Z' then c.toNat - 55
      else base
    if d < base then some d else none
  let digits? (cs : List Char) : Option Nat :=
    if cs.isEmpty then none
    else cs.foldlM (fun n c => (digit? c).map fun d => n * base + d) 0
  let value : Option Int := match text.toList with
    | '-' :: rest => (digits? rest).map fun n => -(n : Int)
    | '+' :: rest => (digits? rest).map Int.ofNat
    | rest => (digits? rest).map Int.ofNat
  value.bind fun v => if -2147483648 ≤ v && v ≤ 2147483647 then some (Int32.ofInt v) else none

end Cleartext.Machine
