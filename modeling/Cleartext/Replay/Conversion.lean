import Cleartext.Error
import Cleartext.Machine.Datum
import Cleartext.Yaml.Value

/-!
# Arguments from data

Data of a state file as arguments of a call.  How loosely data is converted is
left open: a `Cast` takes texts and code units as they are, and the rest is its
own affair.

`Cast.standard` is generous: texts are read as numbers, truth values count as
zero and one, and numbers wrap to the width of their type.
-/

namespace Cleartext.Replay

open Machine (Datum)
open Yaml (Value)

/-! ## Words for messages -/

/-- The type of a value, as messages name it. -/
def typeName : Value → String
  | .null => "<nil>"
  | .bool _ => "bool"
  | .int n => if n < 0x8000000000000000 then "int" else "uint64"
  | .float _ => "float64"
  | .text _ => "string"
  | .moment _ => "time.Time"
  | .list _ => "[]interface \x7b\x7d"
  | .map _ => "map[string]interface \x7b\x7d"
  | .units _ => "[]int"

mutual

/-- A value, as messages show it. -/
def shown : Value → String
  | .null => "<nil>"
  | .bool b => toString b
  | .int n => if n < 0x8000000000000000 then toString n else "0x" ++ Text.hex n.toNat
  | .float bits => Decimal.general (Decimal.Binary.ofBits64 bits.toUInt64)
  | .text s => Text.quote s
  | .moment s => s
  | .list items => "[]interface \x7b\x7d\x7b" ++ ", ".intercalate (shownItems items) ++ "\x7d"
  | .map pairs => "map[string]interface \x7b\x7d\x7b" ++ ", ".intercalate (shownPairs pairs) ++ "\x7d"
  | .units codes => "[]int\x7b" ++ ", ".intercalate (codes.map toString) ++ "\x7d"

/-- Items, as messages show them. -/
def shownItems : List Value → List String
  | [] => []
  | .null :: rest => "interface \x7b\x7d(nil)" :: shownItems rest
  | v :: rest => shown v :: shownItems rest

/-- Pairs, as messages show them. -/
def shownPairs : List (String × Value) → List String
  | [] => []
  | (k, .null) :: rest => (Text.quote k ++ ":interface \x7b\x7d(nil)") :: shownPairs rest
  | (k, v) :: rest => (Text.quote k ++ ":" ++ shown v) :: shownPairs rest

end

mutual

/-- A value in plain words. -/
def plainText : Value → String
  | .null => "<nil>"
  | .bool b => toString b
  | .int n => toString n
  | .float bits => Decimal.general (Decimal.Binary.ofBits64 bits.toUInt64)
  | .text s | .moment s => s
  | .list items => "[" ++ " ".intercalate (plainItems items) ++ "]"
  | .map pairs =>
    let texts := (plainPairs pairs).mergeSort fun a b => a.1 ≤ b.1
    "map[" ++ " ".intercalate (texts.map fun (k, v) => k ++ ":" ++ v) ++ "]"
  | .units codes => "[" ++ " ".intercalate (codes.map toString) ++ "]"

/-- Items in plain words. -/
def plainItems : List Value → List String
  | [] => []
  | v :: rest => plainText v :: plainItems rest

/-- Pairs in plain words. -/
def plainPairs : List (String × Value) → List (String × String)
  | [] => []
  | (k, v) :: rest => (k, plainText v) :: plainPairs rest

end

/-- The failure of a conversion. -/
def cannotCast (v : Value) (target : String) (why : String) : Error :=
  .other (s!"unable to cast {shown v} of type {typeName v} to {target}" ++
    if why = "" then "" else ": " ++ why)

/-- Why a text was not read by a function. -/
def readingFlaw (function text : String) (flaw : Decimal.NumeralFlaw) : String :=
  s!"strconv.{function}: parsing {Text.quote text}: {flaw.message}"

/-! ## Numbers -/

/-- A number by its bits as a whole number, cut towards zero; none when it is
not finite. -/
def truncated? (bits : Nat) : Option Int :=
  match Decimal.Binary.ofBits64 bits.toUInt64 with
  | .finite negative significand exponent _ =>
    let n : Nat := if 0 ≤ exponent then significand * Nat.pow 2 exponent.toNat
      else significand / Nat.pow 2 (-exponent).toNat
    some (if negative then -(n : Int) else n)
  | _ => none

/-- A number by its bits as a whole number of a width; what does not fit
becomes the least one. -/
def wholeNumber (width : Nat) (bits : Nat) : Int :=
  let least : Int := -(Nat.pow 2 (width - 1))
  match truncated? bits with
  | some n => if least ≤ n && n < Nat.pow 2 (width - 1) then n else least
  | none => least

/-- The digits of a decimal in front of its point, when a text is one. -/
def wholePart (text : String) : String :=
  let (sign, digits) := match text.toList with
    | '-' :: rest => ("-", rest)
    | '+' :: rest => ("+", rest)
    | rest => ("", rest)
  let whole := digits.takeWhile Char.isDigit
  let isDecimal := match digits.dropWhile Char.isDigit with
    | [] => true
    | '.' :: rest => rest.all Char.isDigit
    | _ => false
  if !isDecimal then text
  else if whole.isEmpty then sign ++ "0"
  else sign ++ String.ofList whole

/-- A value as a whole number of a width. -/
def toInteger (width : Nat) (v : Value) : Except Error Int :=
  match v with
  | .null => return 0
  | .bool b => return if b then 1 else 0
  | .int n => return n
  | .float bits => return wholeNumber width bits
  | .text "" => return 0
  | .text s =>
    match Decimal.readInt64 (wholePart s) with
    | .ok n => return n
    | .error flaw => throw (cannotCast v s!"int{width}" (readingFlaw "ParseInt" (wholePart s) flaw))
  | _ => throw (cannotCast v s!"int{width}" "")

/-- A value as a code unit. -/
def toUnit (v : Value) : Except Error UInt16 :=
  let negative : Error := .other "unable to cast negative value"
  match v with
  | .null => return 0
  | .bool b => return if b then 1 else 0
  | .int n => if n < 0 then throw negative else return UInt16.ofInt n
  | .float bits =>
    if 0x8000000000000000 < bits && bits ≤ 0x8000000000000000 + Decimal.double.infinity then throw negative
    else return UInt16.ofInt (wholeNumber 32 bits)
  | .text "" => return 0
  | .text s =>
    let digits := String.ofList ((wholePart s).toList.dropWhile (· = '+'))
    match Decimal.readUInt64 digits with
    | .ok n => return n.toUInt16
    | .error flaw => throw (cannotCast v "uint16" (readingFlaw "ParseUint" digits flaw))
  | _ => throw (cannotCast v "uint16" "")

/-- A whole number in a binary format. -/
def integerBits (f : Decimal.Format) (n : Int) : Nat :=
  ((Decimal.roundToBits f n.natAbs 1).getD f.infinity) + if n < 0 then f.sign else 0

/-- A number of 64 bits in a binary format. -/
def floatBits (f : Decimal.Format) (bits : Nat) : Nat :=
  match Decimal.Binary.ofBits64 bits.toUInt64 with
  | .nan => f.nan
  | .infinite negative => f.infinity + if negative then f.sign else 0
  | .finite negative significand exponent _ =>
    ((Decimal.roundToBits f (significand * Nat.pow 2 exponent.toNat) (Nat.pow 2 (-exponent).toNat)).getD
      f.infinity) + if negative then f.sign else 0

/-- A value in a binary format. -/
def toFloat (f : Decimal.Format) (target : String) (v : Value) : Except Error Nat :=
  match v with
  | .null => return 0
  | .bool b => return if b then integerBits f 1 else 0
  | .int n => return integerBits f n
  | .float bits => return floatBits f bits
  | .text "" => return 0
  | .text s =>
    match Decimal.readFloat f s with
    | .ok bits => return bits
    | .error flaw => throw (cannotCast v target (readingFlaw "ParseFloat" s flaw))
  | _ => throw (cannotCast v target "")

/-- A value as a truth value. -/
def toBool (v : Value) : Except Error Bool :=
  match v with
  | .null => return false
  | .bool b => return b
  | .int n => return n ≠ 0
  | .float bits => return bits % Decimal.double.sign ≠ 0
  | .text s =>
    match Decimal.readBool s with
    | .ok b => return b
    | .error flaw => throw (.other (readingFlaw "ParseBool" s flaw))
  | _ => throw (cannotCast v "bool" "")

/-! ## Texts -/

/-- A number with all its digits and no exponent. -/
def positionalText (bits : Nat) : String :=
  match Decimal.Binary.ofBits64 bits.toUInt64 with
  | .finite negative significand exponent narrow =>
    (if negative then "-" else "") ++ (Decimal.shortest significand exponent narrow).positional
  | b => Decimal.general b

/-- A value as a text. -/
def toText (v : Value) : Except Error String :=
  match v with
  | .null => return ""
  | .bool b => return toString b
  | .int n => return toString n
  | .float bits => return positionalText bits
  | .text s | .moment s => return s
  | _ => throw (cannotCast v "string" "")

/-! ## Casts -/

/-- Conversions of data to the types of arguments.  A text is the text that it is, and a number
of 16 bits is the code unit that it is. -/
structure Cast where
  int32 : Value → Except Error Int32
  int64 : Value → Except Error Int64
  /-- A number by its 32 bits. -/
  float32 : Value → Except Error UInt32
  /-- A number by its 64 bits. -/
  float64 : Value → Except Error UInt64
  bool : Value → Except Error Bool
  unit : Value → Except Error UInt16
  text : Value → Except Error String
  text_text : ∀ s, text (.text s) = .ok s
  unit_int : ∀ u : UInt16, unit (.int u.toNat) = .ok u

theorem toUnit_int (u : UInt16) : toUnit (.int u.toNat) = .ok u := by
  have hunit : UInt16.ofInt u.toNat = u := by
    apply UInt16.toNat_inj.1
    rw [UInt16.ofInt, UInt16.toNat_ofNat']
    have hlt := u.toNat_lt
    omega
  unfold toUnit
  refine (if_neg (by omega)).trans ?_
  rw [hunit]
  rfl

/-- The generous conversions. -/
def Cast.standard : Cast where
  int32 v := return Int32.ofInt (← toInteger 32 v)
  int64 v := return Int64.ofInt (← toInteger 64 v)
  float32 v := return (← toFloat Decimal.single "float32" v).toUInt32
  float64 v := return (← toFloat Decimal.double "float64" v).toUInt64
  bool := toBool
  unit := toUnit
  text := toText
  text_text _ := rfl
  unit_int := toUnit_int

namespace Cast

variable (cast : Cast)

/-- Code units from a list, which tells the one that is none. -/
def units : Nat → List Value → Except Error Units
  | _, [] => return []
  | i, v :: rest =>
    match cast.unit v with
    | .ok u => return u :: (← units (i + 1) rest)
    | .error e => throw (.within (.codeUnit i) e)

/-- An argument of the type that a descriptor names. -/
def datum (descriptor : String) (v : Value) : Except Error Datum :=
  let int : Except Error Datum := do return .int (← cast.int32 v)
  match descriptor with
  | "I" | "S" | "B" => int
  | "C" =>
    match v with
    | .text s =>
      match s.toList with
      | [c] => return .int (Int32.ofInt c.toNat)
      | _ => int
    | _ => int
  | "Z" => return .int (if ← cast.bool v then 1 else 0)
  | "J" => return .long (← cast.int64 v)
  | "F" => return .float (← cast.float32 v)
  | "D" => return .double (← cast.float64 v)
  | "Ljava/lang/String;" | "Ljava/lang/Object;" =>
    match v with
    | .null => return .null
    | .list items => return .string (← cast.units 0 items)
    | v => return .string (Units.ofText (← cast.text v))
  | _ => throw (.unsupported (.argumentType descriptor))

end Cast

end Cleartext.Replay
