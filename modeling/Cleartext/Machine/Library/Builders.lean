import Cleartext.Machine.Library.Basic

/-!
# Methods of string builders

`java/lang/StringBuilder` and `java/lang/StringBuffer`, which differ in name
only.
-/

namespace Cleartext.Machine.Library

/-- Puts every low surrogate behind the high surrogate that follows it. -/
def joinPairs : Units → Units
  | u :: v :: rest =>
    if Units.isLow u && Units.isHigh v then v :: u :: joinPairs rest
    else u :: joinPairs (v :: rest)
  | units => units

/-- The units in reverse, with the halves of surrogate pairs in order. -/
def reverseUnits (units : Units) : Units := joinPairs units.reverse

/-- The content of the builder that a value refers to. -/
def builderUnits (v : Value) : Run Units :=
  asHidden v fun
    | .builder units => some units
    | _ => none

/-- Replaces the content of a builder. -/
def setBuilder (v : Value) (units : Units) : Run Unit := do
  match v with
  | .ref id => setHidden id (.builder units)
  | _ => collapse

/-- Changes the content of the receiver and answers the receiver. -/
def changeBuilder (args : List Value) (change : Units → Run Units) : Run Value := do
  let self ← arg args 0
  setBuilder self (← change (← builderUnits self))
  return self

/-- Changes the content of the receiver. -/
def mutateBuilder (args : List Value) (change : Units → Run Units) : Run Value := do
  let _ ← changeBuilder args change
  return nothing

/-- Checks a position in a builder; with `atEnd` its end counts. -/
def checkPosition (units : Units) (i : Int32) (atEnd : Bool) : Run Nat := do
  if i < 0 || (if atEnd then units.length + 1 else units.length) ≤ i.toInt then
    throwNew "java/lang/StringIndexOutOfBoundsException" s!"index {i}, length {units.length}"
  return i.toInt.toNat

/-- Fills a new builder: a number is a capacity, anything else a content. -/
def initBuilder : LibraryMethod := fun args => do
  let units ← match args with
    | _ :: content :: _ =>
      match content with
      | .int _ => pure []
      | .null => throwNull
      | v => unitsOf v ""
    | _ => pure []
  setHidden (← selfInstance args) (.builder units)
  return nothing

/-- Appends the text of the argument, which has the given type. -/
def append (type : String) : LibraryMethod := fun args =>
  changeBuilder args fun units => return units ++ (← unitsOf (← arg args 1) type)

/-- Appends the chars of an array. -/
def appendChars : LibraryMethod := fun args =>
  changeBuilder args fun units => do
    let (_, _, elements) ← asArray (← arg args 1)
    return units ++ elementUnits elements

/-- The unit at a position of a builder. -/
def builderCharAt : LibraryMethod := fun args => do
  let units ← builderUnits (← arg args 0)
  let i ← checkPosition units (← intArg args 1) false
  return .int (units.getD i 0).toUInt32.toInt32

/-- The unit that an int argument stands for. -/
def unitArg (args : List Value) (i : Nat) : Run UInt16 :=
  return (← intArg args i).toUInt32.toUInt16

/-- Cuts or fills up the content of a builder. -/
def setLength : LibraryMethod := fun args =>
  mutateBuilder args fun units => do
    let n ← intArg args 1
    if n < 0 then throwNew "java/lang/StringIndexOutOfBoundsException" (toString n.toInt)
    let n := n.toInt.toNat
    return units.take n ++ List.replicate (n - units.length) 0

/-- The constructors of builders. -/
def newBuilder? : String → Option LibraryMethod
  | "()V" | "(I)V" | "(Ljava/lang/String;)V" | "(Ljava/lang/CharSequence;)V" => some initBuilder
  | _ => none

/-- The ways to append, by the type of what is appended. -/
def append? : String → Option LibraryMethod
  | "C" => some (append "C")
  | "I" => some (append "I")
  | "J" => some (append "J")
  | "Z" => some (append "Z")
  | "F" => some (append "F")
  | "D" => some (append "D")
  | "Ljava/lang/String;" | "Ljava/lang/Object;" | "Ljava/lang/CharSequence;" => some (append "")
  | "[C" => some appendChars
  | _ => none

/-- The methods of builders that answer no builder. -/
def plainBuilderMethod? : String → Option LibraryMethod
  | "toString()Ljava/lang/String;" => some fun args => do
    newUnits (← builderUnits (← arg args 0))
  | "length()I" => some fun args => do
    return .int (Int32.ofNat (← builderUnits (← arg args 0)).length)
  | "charAt(I)C" => some builderCharAt
  | "setCharAt(IC)V" => some fun args => mutateBuilder args fun units => do
    let i ← checkPosition units (← intArg args 1) false
    return units.set i (← unitArg args 2)
  | "setLength(I)V" => some setLength
  | _ => none

/-- The methods of builders that answer the builder, by name and parameter. -/
def chainedBuilderMethod? : String → Option LibraryMethod
  | "deleteCharAt(I)" => some fun args => changeBuilder args fun units => do
    return units.eraseIdx (← checkPosition units (← intArg args 1) false)
  | "insert(IC)" => some fun args => changeBuilder args fun units => do
    let i ← checkPosition units (← intArg args 1) true
    return units.take i ++ (← unitArg args 2) :: units.drop i
  | "reverse()" => some fun args => changeBuilder args fun units => return reverseUnits units
  | _ => none

/-- What stands in a descriptor between its parentheses, when its result is
the given type. -/
def parameters? (descriptor result : String) : Option String :=
  match descriptor.toList with
  | '(' :: rest =>
    let tail := (")" ++ result).toList
    if tail.isSuffixOf rest then some (String.ofList (rest.take (rest.length - tail.length)))
    else none
  | _ => none

/-- The methods of the builder class `cls`, by name and descriptor. -/
def builderMethod? (cls name descriptor : String) : Option LibraryMethod :=
  if name = "<init>" then newBuilder? descriptor
  else match parameters? descriptor ("L" ++ cls ++ ";") with
    | some params =>
      if name = "append" then append? params
      else chainedBuilderMethod? (name ++ "(" ++ params ++ ")")
    | none => plainBuilderMethod? (name ++ descriptor)

end Cleartext.Machine.Library
