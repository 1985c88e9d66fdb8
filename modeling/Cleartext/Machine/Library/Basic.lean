import Cleartext.Machine.Arithmetic
import Cleartext.Machine.World

/-!
# Library methods

What all emulated library methods share: how they take their arguments, and
the text of a value.
-/

namespace Cleartext.Machine

/-- An emulated library method.  The receiver of an instance method comes
first. -/
abbrev LibraryMethod := List Value → Run Value

/-- The argument at an index. -/
def arg (args : List Value) (i : Nat) : Run Value :=
  match args[i]? with
  | some v => return v
  | none => collapse

/-- The int at an index; zero for any other value. -/
def intArg (args : List Value) (i : Nat) : Run Int32 := do
  match ← arg args i with
  | .int v => return v
  | _ => return 0

/-- The long at an index; zero for any other value. -/
def longArg (args : List Value) (i : Nat) : Run Int64 := do
  match ← arg args i with
  | .long v => return v
  | _ => return 0

/-- The answer yes or no. -/
def truth (b : Bool) : Value := .int (if b then 1 else 0)

/-- An answer for a method that has none. -/
def nothing : Value := .null

/-- The units of the string that a method is called on. -/
def selfUnits (args : List Value) : Run Units := do
  match ← deref? (← arg args 0) with
  | some (.string units) => return units
  | _ => collapse

/-- The number of the instance that a method is called on. -/
def selfInstance (args : List Value) : Run Nat := do
  match ← arg args 0 with
  | .ref id =>
    match ← object? id with
    | some (.instance ..) => return id
    | _ => collapse
  | _ => collapse

/-- The number and the units of a string value. -/
def asString (v : Value) : Run (Nat × Units) := do
  match v with
  | .null => throwNull
  | .ref id =>
    match ← object? id with
    | some (.string units) => return (id, units)
    | _ => unsupported (.expectedString (← className v))
  | _ => unsupported (.expectedString (← className v))

/-- The number, the component type and the elements of an array value. -/
def asArray (v : Value) : Run (Nat × String × Array Value) := do
  match v with
  | .null => throwNull
  | .ref id =>
    match ← object? id with
    | some (.array component elements) => return (id, component, elements)
    | _ => unsupported (.expectedArray (← className v))
  | _ => unsupported (.expectedArray (← className v))

/-- What `pick` finds in the hidden state of an instance. -/
def asHidden {α : Type} (v : Value) (pick : Hidden → Option α) : Run α := do
  match v with
  | .null => throwNull
  | .ref id =>
    match ← object? id with
    | some (.instance cls _ hidden) =>
      match pick hidden with
      | some a => return a
      | none => unsupported (.notInitialized (externalName cls))
    | _ => unsupported (.noNativeState (← className v))
  | _ => unsupported (.noNativeState (← className v))

/-- The text in the hidden state of an instance. -/
def hiddenText (v : Value) : Run String :=
  asHidden v fun
    | .text content => some content
    | _ => none

/-- The units that the elements of an array stand for. -/
def elementUnits (elements : Array Value) : Units :=
  elements.toList.map fun
    | .int v => v.toUInt32.toUInt16
    | _ => 0

/-- The bytes that the elements of an array stand for. -/
def elementBytes (elements : Array Value) : Bytes :=
  elements.toList.map fun
    | .int v => v.toUInt32.toUInt8
    | _ => 0

/-- An array of chars. -/
def newChars (units : Units) : Run Value :=
  new (.array "C" (units.map fun u => Value.int u.toUInt32.toInt32).toArray)

/-- An array of bytes. -/
def newBytes (bytes : Bytes) : Run Value :=
  new (.array "B" (bytes.map fun b => Value.int b.toInt8.toInt32).toArray)

/-- A name followed by an identity hash. -/
def hashedName (name : String) (v : Value) : Run Units := do
  let h ← identityHash v
  return Units.ofText (name ++ "@" ++ Text.hex h.toUInt32.toNat)

/-- The text of an int whose type is known. -/
def intUnits (v : Int32) (type : String) : Units :=
  match type with
  | "C" => [v.toUInt32.toUInt16]
  | "Z" => Units.ofText (if v = 0 then "false" else "true")
  | _ => Units.ofText (toString v.toInt)

/-- The text of a value that is no instance. -/
def plainUnits (v : Value) (type : String) : Run Units := do
  match v with
  | .null => return Units.ofText "null"
  | .int v => return intUnits v type
  | .long v => return Units.ofText (toString v.toInt)
  | .float bits => return Units.ofText (floatText (.ofBits32 bits))
  | .double bits => return Units.ofText (floatText (.ofBits64 bits))
  | v => unsupported (.rendering (← kindName v))

/-- The text of a value.  `type` is its type when that is known; it decides
how an int is shown. -/
def unitsOf (v : Value) (type : String) : Run Units := do
  match ← deref? v with
  | none => plainUnits v type
  | some (.string units) => return units
  | some (.array component _) => hashedName ("[" ++ externalName component) v
  | some (.instance cls _ hidden) =>
    match hidden with
    | .builder units => return units
    | .throwable message _ =>
      match message with
      | none => return Units.ofText (externalName cls)
      | some m => return Units.ofText (externalName cls ++ ": " ++ (← stringText m))
    | hidden =>
      match cls with
      | "java/lang/Integer" | "java/lang/Long" | "java/lang/Character" =>
        let type := if cls = "java/lang/Character" then "C" else ""
        match hidden with
        | .boxed content => plainUnits content type
        | .none => plainUnits .null type
        | _ => unsupported (.rendering "emu.hashMap")
      | "java/lang/Class" =>
        match hidden with
        | .text name => return Units.ofText ("class " ++ externalName name)
        | _ => collapse
      | "java/net/URL" =>
        match hidden with
        | .text location => return Units.ofText location
        | _ => collapse
      | _ => hashedName (externalName cls) v

end Cleartext.Machine
