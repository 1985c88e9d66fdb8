import Cleartext.Machine.Library.Basic

/-!
# Methods of numbers and characters

`java/lang/Integer`, `java/lang/Long`, `java/lang/Character` and
`java/lang/Math`.
-/

namespace Cleartext.Machine.Library

/-- The exception for a text that is no number. -/
def throwFormat {α : Type} (message : String) : Run α :=
  throwNew "java/lang/NumberFormatException" message

/-- The int that a string in a base stands for. -/
def parseInt (v : Value) (base : Int32) : Run Value := do
  match ← deref? v with
  | some (.string units) =>
    if base < 2 || 36 < base then throwFormat s!"radix {base} out of range"
    match parseInt? base.toInt.toNat units.text with
    | some n => return .int n
    | none => throwFormat ("For input string: " ++ Text.quote units.text)
  | _ => throwFormat "Cannot parse null string"

/-- The int in the hidden state of an instance. -/
def boxedInt (v : Value) : Run Value :=
  asHidden v fun
    | .boxed (.int n) => some (.int n)
    | _ => none

/-- The long in the hidden state of an instance. -/
def boxedLong (v : Value) : Run Value :=
  asHidden v fun
    | .boxed (.long n) => some (.long n)
    | _ => none

/-- The text of an int in a base; a base that is none counts as ten. -/
def intInBase (n base : Int32) : String :=
  Text.intInBase (if base < 2 || 36 < base then 10 else base.toInt.toNat) n.toInt

/-- The methods of ints. -/
def integerMethod? : String → Option LibraryMethod
  | "valueOf(I)Ljava/lang/Integer;" => some fun args => do
    newHidden "java/lang/Integer" (.boxed (.int (← intArg args 0)))
  | "intValue()I" => some fun args => do boxedInt (← arg args 0)
  | "parseInt(Ljava/lang/String;)I" => some fun args => do parseInt (← arg args 0) 10
  | "parseInt(Ljava/lang/String;I)I" => some fun args => do
    parseInt (← arg args 0) (← intArg args 1)
  | "toString(I)Ljava/lang/String;" => some fun args => do
    newText (toString (← intArg args 0).toInt)
  | "toString(II)Ljava/lang/String;" => some fun args => do
    let base ← intArg args 1
    newText (intInBase (← intArg args 0) base)
  | "toHexString(I)Ljava/lang/String;" => some fun args => do
    newText (Text.hex (← intArg args 0).toUInt32.toNat)
  | _ => none

/-- The methods of longs. -/
def longMethod? : String → Option LibraryMethod
  | "valueOf(J)Ljava/lang/Long;" => some fun args => do
    newHidden "java/lang/Long" (.boxed (.long (← longArg args 0)))
  | "longValue()J" => some fun args => do boxedLong (← arg args 0)
  | "toString(J)Ljava/lang/String;" => some fun args => do
    newText (toString (← longArg args 0).toInt)
  | _ => none

/-- The methods of characters. -/
def characterMethod? : String → Option LibraryMethod
  | "valueOf(C)Ljava/lang/Character;" => some fun args => do
    newHidden "java/lang/Character" (.boxed (.int (← intArg args 0)))
  | "charValue()C" => some fun args => do boxedInt (← arg args 0)
  | "isDigit(C)Z" => some fun args => do
    let c ← intArg args 0
    return truth (48 ≤ c && c ≤ 57)
  | _ => none

/-- The methods on numbers. -/
def mathMethod? : String → Option LibraryMethod
  | "abs(I)I" => some fun args => do
    let n ← intArg args 0
    return .int (if n < 0 then -n else n)
  | "abs(J)J" => some fun args => do
    let n ← longArg args 0
    return .long (if n < 0 then -n else n)
  | "max(II)I" => some fun args => do
    let a ← intArg args 0
    let b ← intArg args 1
    return .int (if a < b then b else a)
  | "min(II)I" => some fun args => do
    let a ← intArg args 0
    let b ← intArg args 1
    return .int (if b < a then b else a)
  | _ => none

end Cleartext.Machine.Library
