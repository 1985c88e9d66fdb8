import Cleartext.Bytes
import Cleartext.Text.Utf16

/-!
# Values and objects

The values of the emulated machine.  A reference is a number that names an
object on the heap.  Floating point numbers are kept as bits, so that values
have decidable equality; arithmetic goes through the numbers they stand for.

A boolean, a byte, a char and a short are ints, as on the operand stack.
-/

namespace Cleartext.Machine

/-- A value of the machine. -/
inductive Value
  | null
  | int (v : Int32)
  | long (v : Int64)
  | float (bits : UInt32)
  | double (bits : UInt64)
  /-- A reference to the object with the given number. -/
  | ref (id : Nat)
  /-- A return address of a subroutine. -/
  | address (pc : Nat)
deriving DecidableEq, Repr, Inhabited

/-- Whether a value takes two slots of a stack or of local variables. -/
def Value.isWide : Value → Bool
  | .long _ | .double _ => true
  | _ => false

/-- Whether two values are the same: floating point numbers compare as
numbers, everything else is equal or not. -/
def Value.same : Value → Value → Bool
  | .float a, .float b => Float32.ofBits a == Float32.ofBits b
  | .double a, .double b => Float.ofBits a == Float.ofBits b
  | a, b => a = b

/-- The value that a variable of a type starts with. -/
def Value.zero (type : String) : Value :=
  match type with
  | "Z" | "B" | "C" | "S" | "I" => .int 0
  | "J" => .long 0
  | "F" => .float 0
  | "D" => .double 0
  | _ => .null

/-- A method on the call stack, by the internal name of its class. -/
structure StackFrame where
  cls : String
  method : String
deriving DecidableEq, Repr, Inhabited

/-- A key of an emulated map: strings and boxed numbers are compared by
value, everything else by identity. -/
inductive MapKey
  /-- A string, by its encoding. -/
  | text (bytes : Bytes)
  | boxed (cls : String) (content : Value)
  | value (v : Value)
deriving DecidableEq, Repr

/-- Whether two keys are the same. -/
def MapKey.same : MapKey → MapKey → Bool
  | .value a, .value b => a.same b
  | a, b => a = b

/-- The state of a library object that interpreted code cannot see. -/
inductive Hidden
  | none
  /-- The content of a string builder. -/
  | builder (units : Units)
  /-- The message of an exception and the call stack it was made on. -/
  | throwable (message : Option Nat) (trace : List StackFrame)
  /-- The name of a class, or a location. -/
  | text (content : String)
  /-- An element of a call stack. -/
  | frame (content : StackFrame)
  /-- A boxed number or character. -/
  | boxed (content : Value)
  /-- The entries of a map. -/
  | table (entries : List (MapKey × Value))
deriving Repr, Inhabited

/-- An object on the heap. -/
inductive Object
  | string (units : Units)
  /-- An array; `component` is the type of its elements. -/
  | array (component : String) (elements : Array Value)
  /-- An instance; only instances of the interpreted class have fields. -/
  | instance (cls : String) (fields : Option (List (String × Value))) (hidden : Hidden)
deriving Repr, Inhabited

/-- The entry of a list of named values. -/
def named? (entries : List (String × Value)) (name : String) : Option Value :=
  entries.lookup name

/-- The list in which `name` has the given value. -/
def setNamed (name : String) (v : Value) : List (String × Value) → List (String × Value)
  | [] => [(name, v)]
  | (n, old) :: rest => if n = name then (n, v) :: rest else (n, old) :: setNamed name v rest

/-- A class name with points between its parts. -/
def externalName (name : String) : String :=
  String.ofList (name.toList.map fun c => if c = '/' then '.' else c)

/-- A class name with slashes between its parts. -/
def internalName (name : String) : String :=
  String.ofList (name.toList.map fun c => if c = '.' then '/' else c)

/-- The internal name of a class that is given by its name or its file. -/
def namedClass (name : String) : String :=
  internalName ((name.dropSuffix ".class").toString)

end Cleartext.Machine
