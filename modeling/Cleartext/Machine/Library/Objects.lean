import Cleartext.Machine.Library.Basic

/-!
# Methods of every object, and of the system

`java/lang/Object`, `java/lang/System` and the copying of arrays.
-/

namespace Cleartext.Machine.Library

/-- Copies a range of one array into another. -/
def arrayCopy : LibraryMethod := fun args => do
  let (_, _, source) ← asArray (← arg args 0)
  let (id, component, target) ← asArray (← arg args 2)
  let start ← intArg args 1
  let position ← intArg args 3
  let length ← intArg args 4
  let start := start.toInt
  let position := position.toInt
  let length := length.toInt
  if start < 0 || position < 0 || length < 0 || source.size < start + length ||
      target.size < position + length then
    throwNew "java/lang/ArrayIndexOutOfBoundsException" "arraycopy: last source index out of bounds"
  let moved := source.extract start.toNat (start + length).toNat
  let elements := target.extract 0 position.toNat ++ moved ++
    target.extract (position + length).toNat target.size
  update id fun _ => .array component elements
  return nothing

/-- A copy of an array. -/
def cloneArray : LibraryMethod := fun args => do
  match ← deref? (← arg args 0) with
  | some (.array component elements) => new (.array component elements)
  | _ => collapse

/-- The methods of arrays. -/
def arrayMethod? : String → Option LibraryMethod
  | "clone()Ljava/lang/Object;" => some cloneArray
  | _ => none

/-- The methods of every object. -/
def objectMethod? : String → Option LibraryMethod
  | "<init>()V" => some fun _ => return nothing
  | "hashCode()I" => some fun args => return .int (← identityHash (← arg args 0))
  | "equals(Ljava/lang/Object;)Z" => some fun args =>
    return truth ((← arg args 0).same (← arg args 1))
  | "getClass()Ljava/lang/Class;" => some fun args => do mirror (← runtimeClass (← arg args 0))
  | "toString()Ljava/lang/String;" => some fun args => do newUnits (← unitsOf (← arg args 0) "")
  | _ => none

/-- The methods of the system. -/
def systemMethod? : String → Option LibraryMethod
  | "arraycopy(Ljava/lang/Object;ILjava/lang/Object;II)V" => some arrayCopy
  | "identityHashCode(Ljava/lang/Object;)I" => some fun args => do
    match ← arg args 0 with
    | .null => return .int 0
    | v => return .int (← identityHash v)
  | _ => none

end Cleartext.Machine.Library
