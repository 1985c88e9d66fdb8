import Cleartext.Error

/-!
# Method descriptors

A method descriptor is a parenthesised list of field types followed by a
return type.  A field type is any number of opening brackets and then either
a letter for a primitive type or a class name between `L` and a semicolon.
-/

namespace Cleartext

/-- A parsed method descriptor. -/
structure Descriptor where
  params : List String
  result : String
deriving DecidableEq, Repr

namespace Descriptor

/-- The letters of the primitive types. -/
def primitives : List Char := ['B', 'C', 'D', 'F', 'I', 'J', 'S', 'Z']

/-- The number of local variables or stack slots that a value of a type takes. -/
def typeSlots (type : String) : Nat :=
  if type = "J" || type = "D" then 2
  else if type = "V" || type = "" then 0
  else 1

/-- The number of slots that the parameters take, without a receiver. -/
def argSlots (d : Descriptor) : Nat := (d.params.map typeSlots).foldr (· + ·) 0

/-- Splits off a class type after its `L`: the characters up to the first
semicolon, and what follows it. -/
def splitClass : List Char → Option (List Char × List Char)
  | [] => none
  | ';' :: rest => some ([';'], rest)
  | c :: rest => (splitClass rest).map fun (name, rest) => (c :: name, rest)

/-- The first byte of a character in UTF-8. -/
def leadByte (c : Char) : UInt8 := (c.toString.toUTF8.toList).headD 0

/-- Splits off the first field type of a list of characters. -/
def splitType : List Char → Except Error (List Char × List Char)
  | [] => .error (.malformed .truncatedType)
  | '[' :: rest => do
    let (type, rest) ← splitType rest
    return ('[' :: type, rest)
  | 'L' :: rest =>
    match splitClass rest with
    | some (name, rest) => .ok ('L' :: name, rest)
    | none => .error (.malformed .unterminatedClassType)
  | c :: rest =>
    if c ∈ primitives then .ok ([c], rest)
    else .error (.malformed (.badFieldType (leadByte c)))

/-- Splits the characters behind the opening parenthesis into the parameter
types and what follows the closing one; `none` stands for a missing closing
parenthesis.  Every type takes a character, so the fuel is the length. -/
def splitParams : Nat → List Char → Except Error (Option (List String × List Char))
  | 0, _ => .ok none
  | _, [] => .ok none
  | _, ')' :: rest => .ok (some ([], rest))
  | fuel + 1, cs => do
    let (type, rest) ← splitType cs
    return (← splitParams fuel rest).map fun (types, rest) => (String.ofList type :: types, rest)

/-- Whether a list of characters is exactly one field type. -/
def isType (cs : List Char) : Bool :=
  match splitType cs with
  | .ok (_, []) => true
  | _ => false

/-- Reads a method descriptor. -/
def parse (text : String) : Except Error Descriptor :=
  match text.toList with
  | '(' :: rest =>
    if text.utf8ByteSize < 3 then .error (.malformed (.badDescriptor text))
    else match splitParams (rest.length + 1) rest with
      | .error e => .error (.within (.descriptor text) e)
      | .ok none => .error (.malformed (.unterminatedDescriptor text))
      | .ok (some (params, result)) =>
        if result = ['V'] || isType result then .ok ⟨params, String.ofList result⟩
        else .error (.malformed (.badReturnType text))
  | _ => .error (.malformed (.badDescriptor text))

end Descriptor

end Cleartext
