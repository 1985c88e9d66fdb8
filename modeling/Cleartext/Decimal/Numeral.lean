import Cleartext.Decimal.Rounding
import Cleartext.Text.Hexadecimal

/-!
# Numerals

Numbers as they are written in settings and state files.  A whole number may
have a sign and one of the bases that `0x`, `0o`, `0b` and a plain `0` mark,
and underscores may stand between its digits.  A fractional number is a
decimal or hexadecimal one with an optional exponent, or the name of infinity
or of a value that is not a number.
-/

namespace Cleartext.Decimal

/-- Why a text is no number. -/
inductive NumeralFlaw
  | form
  | range
deriving DecidableEq, Repr

/-- The wording of a flaw. -/
def NumeralFlaw.message : NumeralFlaw → String
  | .form => "invalid syntax"
  | .range => "value out of range"

/-! ## Whole numbers -/

/-- The value of a digit or a letter. -/
def digitValue? (c : Char) : Option Nat :=
  if c.isDigit then some (c.toNat - 48)
  else if 'a' ≤ c && c ≤ 'z' then some (c.toNat - 87)
  else if 'A' ≤ c && c ≤ 'Z' then some (c.toNat - 55)
  else none

/-- The number with the given digits in a base. -/
def ofDigits? (base : Nat) (digits : List Char) : Option Nat :=
  digits.foldlM (fun n c => do
    let d ← digitValue? c
    if d < base then some (n * base + d) else none) 0

/-- The base that a numeral starts with, and the rest of it. -/
def splitBase : List Char → Nat × List Char
  | '0' :: p :: d :: rest =>
    let digits := d :: rest
    if p = 'x' || p = 'X' then (16, digits)
    else if p = 'o' || p = 'O' then (8, digits)
    else if p = 'b' || p = 'B' then (2, digits)
    else (8, p :: digits)
  | '0' :: rest => (8, rest)
  | digits => (10, digits)

/-- Whether every underscore stands between two digits, or between a base and
a digit. -/
def underscoresFit (hexadecimal : Bool) : (afterDigit : Bool) → List Char → Bool
  | _, [] => true
  | afterDigit, '_' :: c :: rest =>
    afterDigit && (c.isDigit || (hexadecimal && (Text.hexDigit? c).isSome)) &&
      underscoresFit hexadecimal false (c :: rest)
  | _, ['_'] => false
  | _, c :: rest =>
    underscoresFit hexadecimal (c.isDigit || (hexadecimal && (Text.hexDigit? c).isSome)) rest

/-- Whether the underscores of a numeral without its sign are well placed. -/
def underscoresOk (text : List Char) : Bool :=
  match text with
  | '0' :: p :: rest =>
    if p ∈ ['x', 'X'] then underscoresFit true true rest
    else if p ∈ ['o', 'O', 'b', 'B'] then underscoresFit false true rest
    else underscoresFit false false text
  | _ => underscoresFit false false text

/-- Reads digits without a sign. -/
def readNatural (limit : Nat) (text : List Char) : Except NumeralFlaw Nat :=
  if text.isEmpty then .error .form
  else
    let (base, digits) := splitBase text
    match ofDigits? base (digits.filter (· ≠ '_')) with
    | none => .error .form
    | some n =>
      if '_' ∈ digits && !underscoresOk text then .error .form
      else if limit ≤ n then .error .range
      else .ok n

/-- Splits a sign off. -/
def splitSign : List Char → Bool × List Char
  | '-' :: rest => (true, rest)
  | '+' :: rest => (false, rest)
  | text => (false, text)

/-- Reads a whole number of 64 bits with a sign. -/
def readInt64 (text : String) : Except NumeralFlaw Int :=
  let (negative, digits) := splitSign text.toList
  match readNatural (if negative then 0x8000000000000000 + 1 else 0x8000000000000000) digits with
  | .ok n => .ok (if negative then -(n : Int) else n)
  | .error flaw => .error flaw

/-- Reads a whole number of 64 bits without a sign. -/
def readUInt64 (text : String) : Except NumeralFlaw Nat := readNatural (0x10000000000000000) text.toList

/-- Reads a whole number of 64 bits in a fixed base. -/
def readInt64In (base : Nat) (text : String) : Option Int :=
  let (negative, digits) := splitSign text.toList
  if digits.isEmpty then none
  else match ofDigits? base digits with
    | none => none
    | some n =>
      if n < 0x8000000000000000 || (negative && n = 0x8000000000000000) then some (if negative then -(n : Int) else n)
      else none

/-! ## Fractional numbers -/

/-- The digits of a mantissa and the number of those behind the point, and
what follows.  Nothing when there is no digit. -/
def readMantissa (isDigit : Char → Bool) (text : List Char) : Option (List Char × Nat × List Char) :=
  let whole := text.takeWhile isDigit
  let (places, rest) :=
    match text.dropWhile isDigit with
    | '.' :: rest => (rest.takeWhile isDigit, rest.dropWhile isDigit)
    | rest => ([], rest)
  if whole.isEmpty && places.isEmpty then none else some (whole ++ places, places.length, rest)

/-- An exponent behind its mark. -/
def readExponent (text : List Char) : Option Int :=
  let (negative, digits) := splitSign text
  if digits.isEmpty || !digits.all Char.isDigit then none
  else (ofDigits? 10 digits).map fun n => if negative then -(n : Int) else n

/-- The bits of `coefficient · base ^ exponent`.  Exponents far outside every
format are told by the number of digits alone. -/
def scaledBits (f : Format) (base : Nat) (coefficient : Nat) (exponent : Int) :
    Except NumeralFlaw Nat :=
  let size : Int := exponent + (Text.inBase base coefficient).length
  if coefficient = 0 then .ok 0
  else if 2000 < size then .error .range
  else if size < -2000 then .ok 0
  else
    match roundToBits f (coefficient * Nat.pow base exponent.toNat) (Nat.pow base (-exponent).toNat) with
    | some bits => .ok bits
    | none => .error .range

/-- Reads a decimal number without a sign. -/
def readDecimal (f : Format) (text : List Char) : Except NumeralFlaw Nat :=
  match readMantissa Char.isDigit text with
  | none => .error .form
  | some (digits, places, rest) =>
    let exponent := match rest with
      | [] => some 0
      | c :: rest => if c = 'e' || c = 'E' then readExponent rest else none
    match exponent, ofDigits? 10 digits with
    | some e, some n => scaledBits f 10 n (e - places)
    | _, _ => .error .form

/-- Reads a hexadecimal number behind its base mark; the exponent is binary
and must be there. -/
def readHexadecimal (f : Format) (text : List Char) : Except NumeralFlaw Nat :=
  match readMantissa (fun c => (Text.hexDigit? c).isSome) text with
  | some (digits, places, c :: rest) =>
    match readExponent rest, ofDigits? 16 digits with
    | some e, some n =>
      if c = 'p' || c = 'P' then scaledBits f 2 n (e - 4 * places) else .error .form
    | _, _ => .error .form
  | _ => .error .form

/-- Reads a fractional number as the bits of a format. -/
def readFloat (f : Format) (text : String) : Except NumeralFlaw Nat :=
  let (negative, rest) := splitSign text.toList
  let signed (bits : Nat) : Nat := if negative then bits + f.sign else bits
  let lower := rest.map Char.toLower
  if lower = "inf".toList || lower = "infinity".toList then .ok (signed f.infinity)
  else if text.toLower = "nan" then .ok f.nan
  else match rest with
    | '0' :: p :: digits =>
      if p = 'x' || p = 'X' then
        if '_' ∈ digits && !underscoresOk rest then .error .form
        else (readHexadecimal f (digits.filter (· ≠ '_'))).map signed
      else (readDecimal f rest).map signed
    | _ => (readDecimal f rest).map signed

/-! ## Truth -/

/-- Reads a truth value. -/
def readBool (text : String) : Except NumeralFlaw Bool :=
  if text ∈ ["1", "t", "T", "TRUE", "true", "True"] then .ok true
  else if text ∈ ["0", "f", "F", "FALSE", "false", "False"] then .ok false
  else .error .form

end Cleartext.Decimal
