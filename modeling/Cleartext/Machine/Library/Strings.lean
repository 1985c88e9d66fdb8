import Cleartext.Machine.Library.Basic

/-!
# Methods of strings

`java/lang/String`.  A string made by `new` is empty until its constructor
fills it.
-/

namespace Cleartext.Machine.Library

/-- The usual hash of a string. -/
def stringHash (units : Units) : Int32 :=
  units.foldl (fun h u => 31 * h + u.toUInt32.toInt32) 0

/-- The position of the first occurrence of `part` in `units`. -/
def positionOf? (part : Units) : Units → Option Nat
  | [] => if part.isEmpty then some 0 else none
  | u :: rest =>
    if part.isPrefixOf (u :: rest) then some 0 else (positionOf? part rest).map (· + 1)

/-- The answer for a position, minus one when there is none. -/
def positionValue (position : Option Nat) : Value :=
  match position with
  | some i => .int (Int32.ofNat i)
  | none => .int (-1)

/-- The part of a string between two positions. -/
def substring (units : Units) (start stop : Int32) : Run Value := do
  let length := units.length
  if start < 0 || Int32.ofNat length < stop || stop < start then
    throwNew "java/lang/StringIndexOutOfBoundsException"
      s!"begin {start}, end {stop}, length {length}"
  newUnits ((units.take stop.toInt.toNat).drop start.toInt.toNat)

/-- The charset with the given name; the usual one when no name is given. -/
def charset (name : Option Units) : Run Text.Charset := do
  let charsets := (← read).config.charsets
  match name with
  | none => return charsets.usual
  | some name =>
    match charsets.find? name.text with
    | some c => return c
    | none => throwNew "java/io/UnsupportedEncodingException" name.text

/-- The bytes of a string. -/
def encodeString (units : Units) (name : Option Units) : Run Value := do
  match (← charset name).encode units.text with
  | .ok bytes => newBytes bytes
  | .error why => unsupported (.encoding units.text why)

/-- The units of bytes. -/
def decodeBytes (bytes : Bytes) (name : Option Units) : Run Units := do
  match (← charset name).decode bytes with
  | .ok text => return Units.ofText text
  | .error why => unsupported (.decoding why)

/-- Fills a new string. -/
def fill (v : Value) (units : Units) : Run Value := do
  let (id, _) ← asString v
  update id fun _ => .string units
  return nothing

/-- The units of a range of an array. -/
def rangeUnits (elements : Array Value) (start length : Int32) : Run Units := do
  let start := start.toInt
  let length := length.toInt
  if start < 0 || length < 0 || elements.size < start + length then
    throwNew "java/lang/StringIndexOutOfBoundsException"
      s!"offset {start}, count {length}, length {elements.size}"
  return elementUnits (elements.extract start.toNat (start + length).toNat)

/-- The constructors of strings. -/
def newString? : String → Option LibraryMethod
  | "()V" => some fun args => do fill (← arg args 0) []
  | "(Ljava/lang/String;)V" => some fun args => do
    let (_, units) ← asString (← arg args 1)
    fill (← arg args 0) units
  | "([C)V" => some fun args => do
    let (_, _, elements) ← asArray (← arg args 1)
    fill (← arg args 0) (elementUnits elements)
  | "([CII)V" => some fun args => do
    let (_, _, elements) ← asArray (← arg args 1)
    let units ← rangeUnits elements (← intArg args 2) (← intArg args 3)
    fill (← arg args 0) units
  | "([B)V" => some fun args => do
    let (_, _, elements) ← asArray (← arg args 1)
    fill (← arg args 0) (← decodeBytes (elementBytes elements) none)
  | "([BLjava/lang/String;)V" => some fun args => do
    let (_, _, elements) ← asArray (← arg args 1)
    let (_, name) ← asString (← arg args 2)
    fill (← arg args 0) (← decodeBytes (elementBytes elements) (some name))
  | _ => none

/-- The text of the first argument, which has the given type. -/
def valueOf (type : String) : LibraryMethod := fun args => do
  newUnits (← unitsOf (← arg args 0) type)

/-- The texts of values. -/
def textOf? : String → Option LibraryMethod
  | "(C)Ljava/lang/String;" => some (valueOf "C")
  | "(I)Ljava/lang/String;" => some (valueOf "I")
  | "(J)Ljava/lang/String;" => some (valueOf "J")
  | "(Z)Ljava/lang/String;" => some (valueOf "Z")
  | "(Ljava/lang/Object;)Ljava/lang/String;" => some (valueOf "")
  | "([C)Ljava/lang/String;" => some fun args => do
    let (_, _, elements) ← asArray (← arg args 0)
    newUnits (elementUnits elements)
  | _ => none

/-- Whether the receiver is a string equal to the argument. -/
def stringEquals : LibraryMethod := fun args => do
  match ← deref? (← arg args 1) with
  | some (.string other) => return truth ((← selfUnits args) = other)
  | _ => return truth false

/-- The unit at a position. -/
def charAt : LibraryMethod := fun args => do
  let units ← selfUnits args
  let i ← intArg args 1
  match (if i < 0 then none else units[i.toInt.toNat]?) with
  | some u => return .int u.toUInt32.toInt32
  | none =>
    throwNew "java/lang/StringIndexOutOfBoundsException" s!"index {i}, length {units.length}"

/-- The position of a unit. -/
def indexOfUnit : LibraryMethod := fun args => do
  let units ← selfUnits args
  if units.isEmpty then return positionValue none
  let wanted ← intArg args 1
  return positionValue (units.findIdx? fun u => u.toUInt32.toInt32 = wanted)

/-- The position of a string. -/
def indexOfString : LibraryMethod := fun args => do
  let (_, part) ← asString (← arg args 1)
  return positionValue (positionOf? part (← selfUnits args))

/-- A string followed by another. -/
def concat : LibraryMethod := fun args => do
  let (_, other) ← asString (← arg args 1)
  newUnits ((← selfUnits args) ++ other)

/-- Puts one unit for another. -/
def replaceUnit : LibraryMethod := fun args => do
  let units ← selfUnits args
  newUnits (← units.mapM fun u => do
    if u.toUInt32.toInt32 = (← intArg args 1) then
      return (← intArg args 2).toUInt32.toUInt16
    else return u)

/-- The methods of strings that are no constructors. -/
def plainStringMethod? : String → Option LibraryMethod
  | "length()I" => some fun args => return .int (Int32.ofNat (← selfUnits args).length)
  | "isEmpty()Z" => some fun args => return truth (← selfUnits args).isEmpty
  | "charAt(I)C" => some charAt
  | "toCharArray()[C" => some fun args => do newChars (← selfUnits args)
  | "getBytes()[B" => some fun args => do encodeString (← selfUnits args) none
  | "getBytes(Ljava/lang/String;)[B" => some fun args => do
    let (_, name) ← asString (← arg args 1)
    encodeString (← selfUnits args) (some name)
  | "equals(Ljava/lang/Object;)Z" => some stringEquals
  | "hashCode()I" => some fun args => return .int (stringHash (← selfUnits args))
  | "intern()Ljava/lang/String;" => some fun args => do intern (← selfUnits args)
  | "toString()Ljava/lang/String;" => some fun args => arg args 0
  | "substring(I)Ljava/lang/String;" => some fun args => do
    let units ← selfUnits args
    substring units (← intArg args 1) (Int32.ofNat units.length)
  | "substring(II)Ljava/lang/String;" => some fun args => do
    let units ← selfUnits args
    substring units (← intArg args 1) (← intArg args 2)
  | "indexOf(I)I" => some indexOfUnit
  | "indexOf(Ljava/lang/String;)I" => some indexOfString
  | "concat(Ljava/lang/String;)Ljava/lang/String;" => some concat
  | "replace(CC)Ljava/lang/String;" => some replaceUnit
  | _ => none

/-- The methods of strings, by name and descriptor. -/
def stringMethod? (name descriptor : String) : Option LibraryMethod :=
  if name = "<init>" then newString? descriptor
  else if name = "valueOf" then textOf? descriptor
  else plainStringMethod? (name ++ descriptor)

end Cleartext.Machine.Library
